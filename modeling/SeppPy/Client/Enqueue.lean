import SeppPy.Client.Retry
import SeppPy.Convert

/-! # Enqueuing a batch

`enqueue_batch` and `enqueue_atomic` convert the jobs, fill in the current trace headers, send the
request through the retry loop and decode the response position by position. Both choose the
retryable codes for the whole batch: one job without an idempotency key leaves only the codes after
which the server has committed nothing.

The server is an assumption, `Serves`: which positions of the batch each call of the RPC commits,
given how the call ended. `ledger` lists what all calls so far committed. A keyed job is protected
by the server and a keyless one by the choice of codes, so no retry commits a job twice.
-/

namespace SeppPy

/-- An entry of the list `enqueue_batch` returns. -/
inductive EnqueueResult
  | ack (ack : EnqueueAck)
  | rejected (rejection : JobRejection)
deriving DecidableEq, Repr

/-- `_enqueue_retryable_codes`. -/
def enqueueRetryableCodes (jobs : List Pb.EnqueueRequest) : List StatusCode :=
  if jobs.all (·.idempotencyKey.isSome) then RETRYABLE_CODES else KEYLESS_ENQUEUE_RETRYABLE_CODES

/-- `_inject_trace_into_jobs`: the current headers go where a job carries no trace context. -/
def injectTraceIntoJobs (headers : Option (String × Option String))
    (jobs : List Pb.EnqueueRequest) : List Pb.EnqueueRequest :=
  match headers with
  | none => jobs
  | some (traceparent, tracestate) =>
    jobs.map fun job =>
      if job.traceContext.isSome then job
      else { job with traceContext := some ⟨traceparent, tracestate.filter (· ≠ "")⟩ }

variable (pb : Protobuf)

/-- The jobs of the request that both calls send. -/
def requestJobs (headers : Option (String × Option String)) (jobs : List EnqueueRequest) :
    Except PyError (List Pb.EnqueueRequest) := do
  let pbJobs ← jobs.mapM (enqueueRequestToPb pb)
  if pbJobs.isEmpty then .error (.sepp .emptyBatchError)
  else return injectTraceIntoJobs headers pbJobs

/-- `raise errors.client_error_from_rpc(err) from err` around the retry loop. -/
def mapRpcError {α : Type} : Except PyError α → Except PyError α
  | .error (.rpc err) => .error (.sepp (clientErrorFromRpc err))
  | outcome => outcome

def decodeJobResult (jr : Pb.JobResult) : Except PyError EnqueueResult :=
  match jr.outcome with
  | some (.success response) => .ok (.ack (enqueueAckFromPb response))
  | some (.rejection rejection) => EnqueueResult.rejected <$> jobRejectionFromPb pb rejection
  | none => .error (.sepp (.malformedResponseError "missing outcome in job result"))

def decodeBatch (count : ℕ) (resp : Pb.EnqueueBatchResponse) :
    Except PyError (List EnqueueResult) :=
  if resp.results.length ≠ count then
    .error (.sepp (.batchResultCountMismatchError count resp.results.length))
  else resp.results.mapM (decodeJobResult pb)

def decodeAtomic (count : ℕ) (resp : Pb.EnqueueAtomicResponse) : Except PyError (List EnqueueAck) :=
  match resp.outcome with
  | some (.success responses) =>
    if responses.length ≠ count then
      .error (.sepp (.batchResultCountMismatchError count responses.length))
    else .ok (responses.map enqueueAckFromPb)
  | some (.rejection errors) => do
    let errs ← errors.mapM (jobValidationErrorFromPb pb)
    .error (.sepp (.batchValidationError errs))
  | none =>
    .error (.sepp (.malformedResponseError "missing outcome in EnqueueAtomicResponse"))

/-- Send a request of `jobs` through the retry loop and decode the response. -/
def sendBatch {F α β : Type} [PyFloat F] (policy : RetryPolicy F) (jobs : List Pb.EnqueueRequest)
    (outcomes : ℕ → Except PyError α) (random : ℕ → F) (decode : ℕ → α → Except PyError β) :
    Retried F β :=
  let run := withRetry policy (enqueueRetryableCodes jobs) outcomes random
  ⟨mapRpcError run.result >>= decode jobs.length, run.calls, run.sleeps⟩

/-- `results[0]`, raised if it is a rejection. -/
def firstResult : List EnqueueResult → Except PyError EnqueueAck
  | .ack ack :: _ => .ok ack
  | .rejected rejection :: _ => .error (.sepp (.jobRejectedError rejection))
  | [] => .error (.indexError "list index out of range")

section Calls

variable {F : Type} [PyFloat F] (policy : RetryPolicy F)
  (headers : Option (String × Option String)) (random : ℕ → F) (jobs : List EnqueueRequest)

/-- `SeppClient.enqueue_batch`; `outcomes n` is how the `n`-th `EnqueueBatch` call ends. -/
def enqueueBatch (outcomes : ℕ → Except PyError Pb.EnqueueBatchResponse) :
    Retried F (List EnqueueResult) :=
  match requestJobs pb headers jobs with
  | .error err => ⟨.error err, 0, []⟩
  | .ok request => sendBatch policy request outcomes random (decodeBatch pb)

/-- `SeppClient.enqueue_atomic`. -/
def enqueueAtomic (outcomes : ℕ → Except PyError Pb.EnqueueAtomicResponse) :
    Retried F (List EnqueueAck) :=
  match requestJobs pb headers jobs with
  | .error err => ⟨.error err, 0, []⟩
  | .ok request => sendBatch policy request outcomes random (decodeAtomic pb)

/-- `SeppClient.enqueue`: a batch of one job. -/
def enqueue (job : EnqueueRequest) (outcomes : ℕ → Except PyError Pb.EnqueueBatchResponse) :
    Retried F EnqueueAck :=
  let run := enqueueBatch pb policy headers random [job] outcomes
  ⟨run.result >>= firstResult, run.calls, run.sleeps⟩

end Calls

/-! ## The server -/

/-- The queue and the idempotency key of the job at a position, when it is keyed. -/
def keyAt (jobs : List Pb.EnqueueRequest) (i : ℕ) : Option (String × String) :=
  (jobs[i]?).bind fun job => job.idempotencyKey.map fun key => (job.queue, key)

/-- One call of the RPC: how it ended for the client, and the positions it committed. -/
structure Attempt (α : Type) where
  outcome : Except PyError α
  committed : List ℕ

/-- What a response tells about each position of the batch. -/
class Report (α : Type) where
  accepted : α → ℕ → Prop
  deduplicated : α → ℕ → Prop

/-- The acknowledgement a batch response carries for a position. -/
def Pb.EnqueueBatchResponse.ackAt (resp : Pb.EnqueueBatchResponse) (i : ℕ) :
    Option Pb.EnqueueResponse :=
  match resp.results[i]? with
  | some ⟨some (.success response)⟩ => some response
  | _ => none

/-- The acknowledgement an atomic response carries for a position. -/
def Pb.EnqueueAtomicResponse.ackAt (resp : Pb.EnqueueAtomicResponse) (i : ℕ) :
    Option Pb.EnqueueResponse :=
  match resp.outcome with
  | some (.success responses) => responses[i]?
  | _ => none

instance : Report Pb.EnqueueBatchResponse where
  accepted resp i := ∃ r, resp.ackAt i = some r ∧ r.deduplicated = false
  deduplicated resp i := ∃ r, resp.ackAt i = some r ∧ r.deduplicated = true

instance : Report Pb.EnqueueAtomicResponse where
  accepted resp i := ∃ r, resp.ackAt i = some r ∧ r.deduplicated = false
  deduplicated resp i := ∃ r, resp.ackAt i = some r ∧ r.deduplicated = true

variable {α : Type}

/-- The positions committed by the first `n` calls, in order. -/
def ledger (attempts : ℕ → Attempt α) : ℕ → List ℕ
  | 0 => []
  | n + 1 => ledger attempts n ++ (attempts (n + 1)).committed

/-- The job's key is taken: by a call before this one, or by a position of the ledger. -/
def KeyTaken (jobs : List Pb.EnqueueRequest) (prior : List (String × String)) (committed : List ℕ)
    (i : ℕ) : Prop :=
  ∃ key, keyAt jobs i = some key ∧ (key ∈ prior ∨ ∃ j ∈ committed, keyAt jobs j = some key)

/-- How the server answers the calls that send `jobs`, when the keys in `prior` are already taken:
a call that answers `UNAVAILABLE` or `RESOURCE_EXHAUSTED` committed nothing, a successful one
exactly what it reports as accepted, any other a subset of the batch; a key is committed at most
once, and only a job whose key is taken is reported as deduplicated. -/
structure Serves [Report α] (jobs : List Pb.EnqueueRequest) (prior : List (String × String))
    (attempts : ℕ → Attempt α) : Prop where
  subset : ∀ n, (attempts n).committed.Nodup ∧ ∀ i ∈ (attempts n).committed, i < jobs.length
  clean : ∀ n err, (attempts n).outcome = .error (.rpc err) →
    err.code = .unavailable ∨ err.code = .resourceExhausted → (attempts n).committed = []
  exact : ∀ n resp, (attempts n).outcome = .ok resp →
    ∀ i, i ∈ (attempts n).committed ↔ i < jobs.length ∧ Report.accepted resp i
  keyed : ∀ n, (prior ++ (ledger attempts n).filterMap (keyAt jobs)).Nodup
  dedup : ∀ n resp i, (attempts (n + 1)).outcome = .ok resp → i < jobs.length →
    Report.deduplicated resp i → KeyTaken jobs prior (ledger attempts (n + 1)) i

/-- No keyless job is committed twice, and no key more than once. -/
def CommitsOnce (jobs : List Pb.EnqueueRequest) (committed : List ℕ) : Prop :=
  (∀ i < jobs.length, keyAt jobs i = none → committed.count i ≤ 1) ∧
    ∀ key, committed.countP (fun i => decide (keyAt jobs i = some key)) ≤ 1

private theorem length_injectTraceIntoJobs (headers : Option (String × Option String))
    (jobs : List Pb.EnqueueRequest) : (injectTraceIntoJobs headers jobs).length = jobs.length := by
  simp only [injectTraceIntoJobs]
  split
  · rfl
  · exact List.length_map ..

variable {F : Type} [PyFloat F] {pb} {policy : RetryPolicy F}
  {headers : Option (String × Option String)} {random : ℕ → F} {jobs : List EnqueueRequest}
  {request : List Pb.EnqueueRequest} {prior : List (String × String)}

/-- The request has one message per submitted job. -/
theorem length_requestJobs (sent : requestJobs pb headers jobs = .ok request) :
    request.length = jobs.length := by
  obtain ⟨converted, all, rest⟩ := Except.bind_eq_ok_iff.mp sent
  split at rest
  · contradiction
  · cases rest
    rw [length_injectTraceIntoJobs]
    exact (Except.mapM_eq_ok_iff.mp all).length_eq.symm

/-! ## No duplicates -/

/-- When every call but the last committed nothing, the ledger is what the last one committed. -/
theorem ledger_of_clean {attempts : ℕ → Attempt α} (last : ℕ)
    (clean : ∀ n, 1 ≤ n → n ≤ last → (attempts n).committed = []) :
    ledger attempts (last + 1) = (attempts (last + 1)).committed := by
  have empty (n : ℕ) (below : n ≤ last) : ledger attempts n = [] := by
    induction n with
    | zero => rfl
    | succ n ih => rw [ledger, ih (by omega), clean (n + 1) (by omega) below, List.append_nil]
  rw [ledger, empty last le_rfl, List.nil_append]

private theorem mem_ledger_of_mem_committed {attempts : ℕ → Attempt α} {n i : ℕ} (positive : 1 ≤ n)
    (member : i ∈ (attempts n).committed) : i ∈ ledger attempts n := by
  cases n with
  | zero => omega
  | succ n => exact List.mem_append_right _ member

/-- Among codes after which nothing is committed, only the last call can commit. -/
theorem committed_of_retryable [Report α] {attempts : ℕ → Attempt α}
    (serves : Serves request prior attempts) {n : ℕ}
    (again : Retryable KEYLESS_ENQUEUE_RETRYABLE_CODES (attempts n).outcome) :
    (attempts n).committed = [] := by
  obtain ⟨err, ended, code⟩ := again
  refine serves.clean n err ended ?_
  simpa [KEYLESS_ENQUEUE_RETRYABLE_CODES] using code

private theorem keyAt_isSome_of_all_keyed (keyed : request.all (·.idempotencyKey.isSome) = true)
    {i : ℕ} (bound : i < request.length) : (keyAt request i).isSome = true := by
  have key := List.all_eq_true.mp keyed _ (List.getElem_mem bound)
  simp only [keyAt, List.getElem?_eq_getElem bound, Option.bind_some, Option.isSome_map]
  exact key

/-- The retry loop never commits a keyless job twice, whatever the attempts end with. -/
theorem commitsOnce_withRetry [Report α] {attempts : ℕ → Attempt α}
    (serves : Serves request prior attempts) :
    CommitsOnce request (ledger attempts
      (withRetry policy (enqueueRetryableCodes request) (fun n => (attempts n).outcome) random).calls) := by
  obtain ⟨positive, _, retried⟩ := withRetry_spec policy (enqueueRetryableCodes request)
    (fun n => (attempts n).outcome) random
  generalize (withRetry policy _ _ random).calls = calls at positive retried ⊢
  constructor
  · intro i bound keyless
    by_cases keyed : request.all (·.idempotencyKey.isSome) = true
    · have key := keyAt_isSome_of_all_keyed keyed bound
      rw [keyless] at key
      contradiction
    · rw [enqueueRetryableCodes, if_neg keyed] at retried
      obtain ⟨last, rfl⟩ := Nat.exists_eq_add_of_le' positive
      rw [ledger_of_clean last fun n above below =>
        committed_of_retryable serves (retried n above (by omega))]
      exact List.nodup_iff_count_le_one.mp (serves.subset (last + 1)).1 i
  · intro key
    have distinct := (List.nodup_append.mp (serves.keyed calls)).2.1
    have once := List.nodup_iff_count_le_one.mp distinct key
    rw [List.count_filterMap] at once
    simpa [Bool.beq_eq_decide_eq] using once

/-- A position that the decoded batch acknowledges is acknowledged by the response. -/
theorem ackAt_of_decodeBatch {resp : Pb.EnqueueBatchResponse} {count : ℕ}
    {out : List EnqueueResult} (decoded : decodeBatch pb count resp = .ok out) :
    out.length = count ∧ ∀ i ack, out[i]? = some (.ack ack) →
      ∃ r, resp.ackAt i = some r ∧ ack = enqueueAckFromPb r := by
  simp only [decodeBatch] at decoded
  split at decoded
  · contradiction
  · next count_eq =>
    have pointwise := Except.mapM_eq_ok_iff.mp decoded
    refine ⟨pointwise.length_eq.symm.trans (not_not.mp count_eq), fun i ack entry => ?_⟩
    obtain ⟨bound, atOut⟩ := List.getElem?_eq_some_iff.mp entry
    have bound' : i < resp.results.length := pointwise.length_eq ▸ bound
    have step := pointwise.get bound' bound
    simp only [List.get_eq_getElem, atOut, decodeJobResult] at step
    split at step
    · next response found =>
      cases step
      have whole : resp.results[i] = ⟨some (.success response)⟩ :=
        congrArg Pb.JobResult.mk found
      exact ⟨response, by simp [Pb.EnqueueBatchResponse.ackAt, List.getElem?_eq_getElem bound', whole], rfl⟩
    · next rejection _ =>
      cases rejected : jobRejectionFromPb pb rejection with
      | ok value => rw [rejected] at step; cases step
      | error err => rw [rejected] at step; cases step
    · contradiction

/-- A batch call returns one result per job. -/
theorem length_enqueueBatch {outcomes : ℕ → Except PyError Pb.EnqueueBatchResponse}
    {out : List EnqueueResult}
    (returned : (enqueueBatch pb policy headers random jobs outcomes).result = .ok out) :
    out.length = jobs.length := by
  unfold enqueueBatch at returned
  split at returned
  · contradiction
  · next request sent =>
    obtain ⟨resp, _, decoded⟩ := Except.bind_eq_ok_iff.mp returned
    exact (ackAt_of_decodeBatch decoded).1.trans (length_requestJobs sent)

/-- So `enqueue` finds the result of its job, which is the only one. -/
theorem enqueue_cases (job : EnqueueRequest)
    (outcomes : ℕ → Except PyError Pb.EnqueueBatchResponse) :
    let batch := (enqueueBatch pb policy headers random [job] outcomes).result
    let result := (enqueue pb policy headers random job outcomes).result
    (∃ err, batch = .error err ∧ result = .error err) ∨
      (∃ ack, batch = .ok [.ack ack] ∧ result = .ok ack) ∨
      ∃ rejection, batch = .ok [.rejected rejection] ∧
        result = .error (.sepp (.jobRejectedError rejection)) := by
  intro batch result
  have first : result = batch >>= firstResult := rfl
  rw [first]
  cases returned : batch with
  | error err => exact .inl ⟨err, rfl, rfl⟩
  | ok out =>
    obtain ⟨only, rfl⟩ := List.length_eq_one_iff.mp (length_enqueueBatch returned)
    cases only with
    | ack ack => exact .inr (.inl ⟨ack, rfl, rfl⟩)
    | rejected rejection => exact .inr (.inr ⟨rejection, rfl, rfl⟩)

/-- What a successful batch call acknowledges is committed: by this call, or under its key. -/
theorem acked_is_committed {attempts : ℕ → Attempt Pb.EnqueueBatchResponse}
    (serves : Serves request prior attempts) {n : ℕ} (positive : 1 ≤ n)
    {resp : Pb.EnqueueBatchResponse} (ended : (attempts n).outcome = .ok resp)
    {i : ℕ} (bound : i < request.length) {r : Pb.EnqueueResponse} (acked : resp.ackAt i = some r) :
    i ∈ ledger attempts n ∨ KeyTaken request prior (ledger attempts n) i := by
  cases deduplicated : r.deduplicated with
  | false =>
    have member := (serves.exact n resp ended i).mpr ⟨bound, r, acked, deduplicated⟩
    exact .inl (mem_ledger_of_mem_committed positive member)
  | true =>
    obtain ⟨m, rfl⟩ := Nat.exists_eq_add_of_le' positive
    exact .inr (serves.dedup m resp i ended bound ⟨r, acked, deduplicated⟩)

private theorem batch_result_committed {attempts : ℕ → Attempt Pb.EnqueueBatchResponse}
    (serves : Serves request prior attempts) {out : List EnqueueResult}
    (returned : (sendBatch policy request (fun n => (attempts n).outcome) random
      (decodeBatch pb)).result = .ok out) :
    out.length = request.length ∧ ∀ i ack, out[i]? = some (.ack ack) →
      let committed := ledger attempts (sendBatch policy request (fun n => (attempts n).outcome)
        random (decodeBatch pb)).calls
      i ∈ committed ∨ KeyTaken request prior committed i := by
  obtain ⟨positive, last, _⟩ := withRetry_spec policy (enqueueRetryableCodes request)
    (fun n => (attempts n).outcome) random
  simp only [sendBatch] at returned ⊢
  generalize withRetry policy _ _ random = run at positive last returned ⊢
  obtain ⟨resp, answered, decoded⟩ := Except.bind_eq_ok_iff.mp returned
  have ended : (attempts run.calls).outcome = .ok resp := by
    rw [← last]
    cases result : run.result with
    | ok resp' => rwa [result] at answered
    | error err => rw [result] at answered; cases err <;> cases answered
  obtain ⟨length, acks⟩ := ackAt_of_decodeBatch decoded
  refine ⟨length, fun i ack entry => ?_⟩
  obtain ⟨r, acked, _⟩ := acks i ack entry
  have bound := (List.getElem?_eq_some_iff.mp entry).1
  exact acked_is_committed serves positive ended (length ▸ bound) acked

/-- One call of `enqueue_batch` or `enqueue_atomic` commits each keyless job and each key at most
once, and `enqueue_batch` acknowledges a position only if its job, or one with its key, is
committed. `request` is what is sent, if the jobs convert at all. -/
theorem enqueue_commits_once (pb : Protobuf) (policy : RetryPolicy F)
    (headers : Option (String × Option String)) (random : ℕ → F) (jobs : List EnqueueRequest)
    (request : List Pb.EnqueueRequest) (prior : List (String × String))
    (sent : ∀ r, requestJobs pb headers jobs = .ok r → r = request) :
    (∀ attempts : ℕ → Attempt Pb.EnqueueBatchResponse, Serves request prior attempts →
      let run := enqueueBatch pb policy headers random jobs fun n => (attempts n).outcome
      CommitsOnce request (ledger attempts run.calls) ∧
        ∀ out, run.result = .ok out → out.length = jobs.length ∧
          ∀ i ack, out[i]? = some (.ack ack) → i ∈ ledger attempts run.calls ∨
            KeyTaken request prior (ledger attempts run.calls) i) ∧
    (∀ attempts : ℕ → Attempt Pb.EnqueueAtomicResponse, Serves request prior attempts →
      let run := enqueueAtomic pb policy headers random jobs fun n => (attempts n).outcome
      CommitsOnce request (ledger attempts run.calls)) := by
  simp only [enqueueBatch, enqueueAtomic]
  cases converted : requestJobs pb headers jobs with
  | error err =>
    refine ⟨fun attempts _ => ⟨?_, fun out returned => nomatch returned⟩, fun attempts _ => ?_⟩
    · simp [ledger, CommitsOnce]
    · simp [ledger, CommitsOnce]
  | ok r =>
    obtain rfl := sent r converted
    refine ⟨fun attempts serves => ⟨commitsOnce_withRetry serves, fun out returned => ?_⟩,
      fun attempts serves => commitsOnce_withRetry serves⟩
    obtain ⟨length, acks⟩ := batch_result_committed serves returned
    exact ⟨length.trans (length_requestJobs converted), acks⟩

/-- A keyless job. -/
def keylessJob : EnqueueRequest where
  queue := "emails"
  jobType := "send"
  queueNonempty := by decide
  jobTypeNonempty := by decide

/-- The same job under a key. -/
def keyedJob : EnqueueRequest := { keylessJob with idempotencyKey := some "order-7" }

/-- The first attempt finds the server unavailable, the second is answered. -/
def secondAttempt {α : Type} (resp : α) (committed : List ℕ) : ℕ → Attempt α
  | 2 => ⟨.ok resp, committed⟩
  | _ => ⟨.error (.rpc ⟨.unavailable, none⟩), []⟩

section SecondAttempt

variable {resp : α} {committed : List ℕ}

private theorem secondAttempt_eq {n : ℕ} (other : n ≠ 2) :
    secondAttempt resp committed n = ⟨.error (.rpc ⟨.unavailable, none⟩), []⟩ := by
  unfold secondAttempt
  split
  · exact absurd rfl other
  · rfl

private theorem ledger_secondAttempt (n : ℕ) :
    ledger (secondAttempt resp committed) n = if n < 2 then [] else committed := by
  induction n with
  | zero => rfl
  | succ n ih =>
    rw [ledger, ih]
    by_cases second : n = 1
    · subst second
      rfl
    · rw [secondAttempt_eq (by omega), List.append_nil]
      exact if_congr (by omega) rfl rfl

/-- A server that commits, at the second attempt, what it then reports meets its contract. -/
theorem serves_secondAttempt [Report α] {request : List Pb.EnqueueRequest}
    (exact : ∀ i, i ∈ committed ↔ i < request.length ∧ Report.accepted resp i)
    (distinct : committed.Nodup) (keyed : (committed.filterMap (keyAt request)).Nodup)
    (dedup : ∀ i, Report.deduplicated resp i → KeyTaken request [] committed i) :
    Serves request [] (secondAttempt resp committed) where
  subset n := by
    by_cases second : n = 2
    · subst second
      exact ⟨distinct, fun i member => ((exact i).mp member).1⟩
    · simp [secondAttempt_eq second]
  clean n err ended _ := by
    by_cases second : n = 2
    · subst second
      contradiction
    · rw [secondAttempt_eq second]
  exact n resp' ended i := by
    by_cases second : n = 2
    · subst second
      cases ended
      exact exact i
    · rw [secondAttempt_eq second] at ended
      contradiction
  keyed n := by
    rw [ledger_secondAttempt, List.nil_append]
    split
    · exact List.nodup_nil
    · exact keyed
  dedup n resp' i ended _ reported := by
    by_cases second : n + 1 = 2
    · rw [second] at ended ⊢
      cases ended
      rw [ledger_secondAttempt, if_neg (lt_irrefl 2)]
      exact dedup i reported
    · rw [secondAttempt_eq second] at ended
      contradiction

end SecondAttempt

/-- The messages of a keyed job, a keyless one and a copy of the first. -/
def mixedBatch : List Pb.EnqueueRequest :=
  [{ queue := "emails", jobType := "send", idempotencyKey := some "order-7" },
    { queue := "emails", jobType := "send" },
    { queue := "emails", jobType := "send", idempotencyKey := some "order-7" }]

/-- The second attempt commits the first two jobs and deduplicates the third. -/
theorem serves_mixedBatch [Report α] {resp : α}
    (accepted : ∀ i, Report.accepted resp i ↔ i = 0 ∨ i = 1)
    (deduplicated : ∀ i, Report.deduplicated resp i ↔ i = 2) :
    Serves mixedBatch [] (secondAttempt resp [0, 1]) := by
  refine serves_secondAttempt (fun i => ?_) (by decide) (by decide) fun i reported => ?_
  · rw [accepted, List.mem_pair]
    exact ⟨fun held => ⟨by simp only [mixedBatch, List.length]; omega, held⟩, And.right⟩
  · obtain rfl := (deduplicated i).mp reported
    exact ⟨("emails", "order-7"), rfl, .inr ⟨0, by decide, rfl⟩⟩

/-- A batch of keyed and keyless jobs, retried once, is committed once by either call, and the list
that `enqueue_batch` returns acknowledges what is committed. -/
theorem enqueue_commits_once_keyless :
    let policy : RetryPolicy Binary64 := .init 3
    let jobs := [keyedJob, keylessJob, keyedJob]
    let random : ℕ → Binary64 := fun _ => .finite 0
    let batch := secondAttempt (α := Pb.EnqueueBatchResponse) ⟨[⟨some (.success ⟨"a", false⟩)⟩,
      ⟨some (.success ⟨"b", false⟩)⟩, ⟨some (.success ⟨"a", true⟩)⟩]⟩ [0, 1]
    let atomic := secondAttempt (α := Pb.EnqueueAtomicResponse)
      ⟨some (.success [⟨"a", false⟩, ⟨"b", false⟩, ⟨"a", true⟩])⟩ [0, 1]
    CommitsOnce mixedBatch (ledger batch (enqueueBatch .checked policy none random jobs
        fun n => (batch n).outcome).calls) ∧
      CommitsOnce mixedBatch (ledger atomic (enqueueAtomic .checked policy none random jobs
        fun n => (atomic n).outcome).calls) := by
  intro policy jobs random batch atomic
  have sent : ∀ r, requestJobs .checked none jobs = .ok r → r = mixedBatch := by
    intro r converted
    cases converted
    rfl
  obtain ⟨onBatch, onAtomic⟩ :=
    enqueue_commits_once .checked policy none random jobs mixedBatch [] sent
  refine ⟨(onBatch batch ?_).1, onAtomic atomic ?_⟩
  · apply serves_mixedBatch <;> rintro (_ | _ | _ | i) <;>
      simp [Report.accepted, Report.deduplicated, Pb.EnqueueBatchResponse.ackAt]
  · apply serves_mixedBatch <;> rintro (_ | _ | _ | i) <;>
      simp [Report.accepted, Report.deduplicated, Pb.EnqueueAtomicResponse.ackAt]

end SeppPy
