import SeppPy.Client.Enqueue
import SeppPy.Decoding

/-! # Decoding a successful response

Once an RPC has succeeded, the caller of `enqueue_batch`, `enqueue_atomic` or `get_server_info`
expects a value or one of the library's own errors. The decoders convert three kinds of times
without a guard: the two of a `scheduled_too_far` rejection and the durations of a server info. A
time that protobuf or Python cannot represent leaves the call as protobuf's own exception, and such
a time is the only thing that does.
-/

namespace SeppPy

/-- The errors that the three calls raise over a response. -/
def SeppError.IsResponseError : SeppError → Prop
  | .batchResultCountMismatchError _ _ => True
  | .malformedResponseError _ => True
  | .batchValidationError _ => True
  | .malformedServerInfoError _ => True
  | _ => False

/-- A value is returned or one of these errors raised. -/
def Handled {α : Type} (outcome : Except PyError α) : Prop :=
  ∀ err, outcome = .error err → ∃ e : SeppError, err = .sepp e ∧ e.IsResponseError

/-- Protobuf's own exception is raised. -/
def Foreign {α : Type} (outcome : Except PyError α) : Prop :=
  ∃ err, outcome = .error err ∧ err.isSeppError = false

section

variable {α β : Type} {x : Except PyError α}

private theorem handled_ok (value : α) : Handled (.ok value : Except PyError α) := by
  rintro err ⟨⟩

private theorem handled_error {e : SeppError} (response : e.IsResponseError) :
    Handled (.error (.sepp e) : Except PyError α) := by
  rintro err ⟨⟩
  exact ⟨e, rfl, response⟩

private theorem Foreign.not_handled (foreign : Foreign x) : ¬ Handled x := by
  obtain ⟨err, raised, uncaught⟩ := foreign
  intro handled
  obtain ⟨e, rfl, _⟩ := handled err raised
  contradiction

theorem Foreign.bind (foreign : Foreign x) (f : α → Except PyError β) : Foreign (x >>= f) := by
  obtain ⟨err, raised, uncaught⟩ := foreign
  exact ⟨err, Except.bind_eq_error_iff.mpr (.inl raised), uncaught⟩

/-- What is built from a value cannot fail. -/
theorem handled_built_iff {build : α → β} :
    Handled (x >>= fun value => .ok (build value)) ↔ Handled x := by
  cases x with
  | ok value => exact iff_of_true (handled_ok _) (handled_ok _)
  | error err =>
    constructor
    · rintro handled _ ⟨⟩
      exact handled err rfl
    · rintro handled _ ⟨⟩
      exact handled err rfl

end

/-! ## Times that can be read -/

namespace Pb

/-- A rejection whose times are ones that protobuf and Python can represent. -/
def JobRejection.Readable (r : JobRejection) : Prop :=
  ∀ horizon actual, r.reason = some (.scheduledTooFar horizon actual) →
    (horizon.getD {}).InRange ∧ (actual.getD {}).Valid

def JobResult.Readable (jr : JobResult) : Prop :=
  ∀ rejection, jr.outcome = some (.rejection rejection) → rejection.Readable

/-- The loop over the results stops at the first one without an outcome; those before it are
readable. -/
def EnqueueBatchResponse.Readable (resp : EnqueueBatchResponse) : Prop :=
  ∀ jr ∈ resp.results.takeWhile (·.outcome.isSome), jr.Readable

def JobValidationError.Readable (e : JobValidationError) : Prop :=
  ∀ rejection, e.rejection = some rejection → rejection.Readable

def EnqueueAtomicResponse.Readable (resp : EnqueueAtomicResponse) : Prop :=
  ∀ errors, resp.outcome = some (.rejection errors) → ∀ e ∈ errors, e.Readable

/-- The server's time can at least be formatted, and if it can be read, the durations are in
range. -/
def GetServerInfoResponse.Readable (resp : GetServerInfoResponse) : Prop :=
  (resp.serverTime.getD {}).Valid ∧
    ((resp.serverTime.getD {}).Representable →
      (resp.maxScheduleHorizon.getD {}).InRange ∧ (resp.maxWaitTimeout.getD {}).InRange ∧
        (resp.maxLeaseDuration.getD {}).InRange)

end Pb

/-! ## The decoders -/

variable (pb : Protobuf)

private theorem foreign_toTimedelta {d : Pb.Duration} (outOfRange : ¬ d.InRange) :
    Foreign (pb.toTimedelta d) := by
  obtain ⟨msg, raised⟩ := pb.toTimedelta_outOfRange d outOfRange
  exact ⟨_, raised, rfl⟩

private theorem foreign_toDatetime {ts : Pb.Timestamp} (invalid : ¬ ts.Valid) :
    Foreign (pb.toDatetime ts) := by
  obtain ⟨msg, raised⟩ := pb.toDatetime_invalid ts invalid
  exact ⟨_, raised, rfl⟩

private theorem jobRejectionFromPb_readable {r : Pb.JobRejection} (readable : r.Readable) :
    ∃ rejection, jobRejectionFromPb pb r = .ok rejection := by
  obtain ⟨reason⟩ := r
  cases reason with
  | none => exact ⟨_, rfl⟩
  | some reason =>
    cases reason with
    | scheduledTooFar horizon actual =>
      obtain ⟨inRange, valid⟩ := readable horizon actual rfl
      simp only [jobRejectionFromPb, pb.toTimedelta_inRange _ inRange, pb.toDatetime_valid _ valid]
      exact ⟨_, rfl⟩
    | _ => exact ⟨_, rfl⟩

private theorem foreign_jobRejectionFromPb {r : Pb.JobRejection} (unreadable : ¬ r.Readable) :
    Foreign (jobRejectionFromPb pb r) := by
  simp only [Pb.JobRejection.Readable, not_forall, not_and_or] at unreadable
  obtain ⟨horizon, actual, reason, times⟩ := unreadable
  simp only [jobRejectionFromPb, reason]
  by_cases inRange : (horizon.getD {}).InRange
  · have invalid := times.resolve_left (not_not_intro inRange)
    rw [pb.toTimedelta_inRange _ inRange]
    exact (foreign_toDatetime pb invalid).bind _
  · exact (foreign_toTimedelta pb inRange).bind _

private theorem jobValidationErrorFromPb_readable {e : Pb.JobValidationError}
    (readable : e.Readable) : ∃ decoded, jobValidationErrorFromPb pb e = .ok decoded := by
  cases found : e.rejection with
  | none =>
    simp only [jobValidationErrorFromPb, found]
    exact ⟨_, rfl⟩
  | some r =>
    obtain ⟨rejection, decoded⟩ := jobRejectionFromPb_readable pb (readable r found)
    simp only [jobValidationErrorFromPb, found, decoded]
    exact ⟨_, rfl⟩

private theorem foreign_jobValidationErrorFromPb {e : Pb.JobValidationError}
    (unreadable : ¬ e.Readable) : Foreign (jobValidationErrorFromPb pb e) := by
  simp only [Pb.JobValidationError.Readable, not_forall] at unreadable
  obtain ⟨r, found, unreadable⟩ := unreadable
  simp only [jobValidationErrorFromPb, found]
  exact (foreign_jobRejectionFromPb pb unreadable).bind _

private theorem decodeJobResult_readable {jr : Pb.JobResult} (set : jr.outcome.isSome = true)
    (readable : jr.Readable) : ∃ value, decodeJobResult pb jr = .ok value := by
  obtain ⟨outcome, found⟩ := Option.isSome_iff_exists.mp set
  cases outcome with
  | success response =>
    simp only [decodeJobResult, found]
    exact ⟨_, rfl⟩
  | rejection r =>
    obtain ⟨rejection, decoded⟩ := jobRejectionFromPb_readable pb (readable r found)
    simp only [decodeJobResult, found, decoded]
    exact ⟨_, rfl⟩

private theorem foreign_decodeJobResult {jr : Pb.JobResult} (unreadable : ¬ jr.Readable) :
    Foreign (decodeJobResult pb jr) := by
  simp only [Pb.JobResult.Readable, not_forall] at unreadable
  obtain ⟨r, found, unreadable⟩ := unreadable
  simp only [decodeJobResult, found]
  exact (foreign_jobRejectionFromPb pb unreadable).bind _

/-- The loop over the results of a batch. -/
theorem handled_results_iff (results : List Pb.JobResult) :
    Handled (results.mapM (decodeJobResult pb)) ↔
      ∀ jr ∈ results.takeWhile (·.outcome.isSome), jr.Readable := by
  induction results with
  | nil => exact iff_of_true (handled_ok _) fun _ absent => absurd absent List.not_mem_nil
  | cons jr rest ih =>
    by_cases set : jr.outcome.isSome = true
    · rw [List.takeWhile_cons_of_pos (by exact set), List.forall_mem_cons, List.mapM_cons]
      by_cases readable : jr.Readable
      · -- the loop goes on, and the whole is handled as the rest is
        obtain ⟨value, decoded⟩ := decodeJobResult_readable pb set readable
        rw [and_iff_right readable, decoded, ← ih]
        exact handled_built_iff
      · have foreign := foreign_decodeJobResult pb readable
        exact iff_of_false (foreign.bind _).not_handled fun all => readable all.1
    · have stops : decodeJobResult pb jr =
          .error (.sepp (.malformedResponseError "missing outcome in job result")) := by
        simp only [decodeJobResult, Option.not_isSome_iff_eq_none.mp set]
      rw [List.takeWhile_cons_of_neg (by exact set), List.mapM_cons, stops]
      exact iff_of_true (handled_error trivial) fun _ absent => absurd absent List.not_mem_nil

private theorem handled_decodeBatch_iff (count : ℕ) (resp : Pb.EnqueueBatchResponse) :
    Handled (decodeBatch pb count resp) ↔ (resp.results.length = count → resp.Readable) := by
  unfold decodeBatch
  split
  · next mismatch =>
    exact iff_of_true (handled_error trivial) fun same => absurd same mismatch
  · next same =>
    rw [handled_results_iff, imp_iff_right (not_not.mp same)]
    rfl

private theorem handled_decodeAtomic_iff (count : ℕ) (resp : Pb.EnqueueAtomicResponse) :
    Handled (decodeAtomic pb count resp) ↔ resp.Readable := by
  unfold decodeAtomic Pb.EnqueueAtomicResponse.Readable
  cases found : resp.outcome with
  | none => exact iff_of_true (handled_error trivial) fun _ absent => nomatch absent
  | some outcome =>
    cases outcome with
    | success responses =>
      refine iff_of_true ?_ fun _ absent => nomatch absent
      dsimp only
      split
      · exact handled_error trivial
      · exact handled_ok _
    | rejection errors =>
      simp only [Option.some.injEq, Pb.AtomicOutcome.rejection.injEq, forall_eq']
      cases decoded : errors.mapM (jobValidationErrorFromPb pb) with
      | ok errs =>
        refine iff_of_true (handled_error trivial) fun e member => ?_
        obtain ⟨value, passed⟩ := Except.exists_of_mapM_eq_ok decoded member
        by_contra unreadable
        obtain ⟨err, raised, _⟩ := foreign_jobValidationErrorFromPb pb unreadable
        rw [passed] at raised
        contradiction
      | error err =>
        obtain ⟨e, member, failed⟩ := Except.exists_of_mapM_eq_error decoded
        have unreadable : ¬ e.Readable := by
          intro readable
          obtain ⟨value, passed⟩ := jobValidationErrorFromPb_readable pb readable
          rw [passed] at failed
          contradiction
        obtain ⟨err', raised, uncaught⟩ := foreign_jobValidationErrorFromPb pb unreadable
        cases failed.symm.trans raised
        refine iff_of_false ?_ fun all => unreadable (all e member)
        exact Foreign.not_handled ⟨_, rfl, uncaught⟩

/-! ## The server info -/

/-- The end of `get_server_info`, once the RPC has succeeded. -/
def decodeServerInfo (resp : Pb.GetServerInfoResponse) : Except PyError ServerInfo :=
  match serverInfoFromPb pb resp with
  | .error (.sepp (.serverInfoError message)) => .error (.sepp (.malformedServerInfoError message))
  | outcome => outcome

/-- `SeppClient.get_server_info`; `outcomes n` is how the `n`-th `GetServerInfo` call ends. -/
def getServerInfo {F : Type} [PyFloat F] (policy : RetryPolicy F) (random : ℕ → F)
    (outcomes : ℕ → Except PyError Pb.GetServerInfoResponse) : Retried F ServerInfo :=
  let run := withRetry policy RETRYABLE_CODES outcomes random
  ⟨mapRpcError run.result >>= decodeServerInfo pb, run.calls, run.sleeps⟩

/-- Any error of the decoder but its own is passed on. -/
theorem foreign_decodeServerInfo {resp : Pb.GetServerInfoResponse}
    (foreign : Foreign (serverInfoFromPb pb resp)) : ¬ Handled (decodeServerInfo pb resp) := by
  obtain ⟨err, raised, uncaught⟩ := foreign
  have passed : decodeServerInfo pb resp = .error err := by
    unfold decodeServerInfo
    rw [raised]
    split
    · next same =>
      cases same
      contradiction
    · rfl
  rw [passed]
  exact Foreign.not_handled ⟨err, rfl, uncaught⟩

private theorem handled_decodeServerInfo_iff (resp : Pb.GetServerInfoResponse) :
    Handled (decodeServerInfo pb resp) ↔ (resp.serverVersion ≠ "" → resp.Readable) := by
  by_cases version : resp.serverVersion = ""
  · refine iff_of_true ?_ fun present => absurd version present
    simp only [decodeServerInfo, serverInfoFromPb, if_pos version, serverInfoError]
    exact handled_error trivial
  rw [imp_iff_right version]
  have unread : serverInfoFromPb pb resp = _ := if_neg version
  rw [timestampToDatetime_eq] at unread
  by_cases times : (resp.serverTime.getD {}).Representable
  · rw [if_pos times] at unread
    have durations : resp.Readable ↔ (resp.maxScheduleHorizon.getD {}).InRange ∧
        (resp.maxWaitTimeout.getD {}).InRange ∧ (resp.maxLeaseDuration.getD {}).InRange := by
      rw [Pb.GetServerInfoResponse.Readable, and_iff_right times.valid, imp_iff_right times]
    rw [durations]
    by_cases horizon : (resp.maxScheduleHorizon.getD {}).InRange
    · by_cases wait : (resp.maxWaitTimeout.getD {}).InRange
      · by_cases lease : (resp.maxLeaseDuration.getD {}).InRange
        · refine iff_of_true ?_ ⟨horizon, wait, lease⟩
          simp only [pb.toTimedelta_inRange _ horizon, pb.toTimedelta_inRange _ wait,
            pb.toTimedelta_inRange _ lease] at unread
          rw [decodeServerInfo, unread]
          exact handled_ok _
        · refine iff_of_false (foreign_decodeServerInfo pb ?_) fun all => lease all.2.2
          simp only [pb.toTimedelta_inRange _ horizon, pb.toTimedelta_inRange _ wait] at unread
          rw [unread]
          exact (foreign_toTimedelta pb lease).bind _
      · refine iff_of_false (foreign_decodeServerInfo pb ?_) fun all => wait all.2.1
        simp only [pb.toTimedelta_inRange _ horizon] at unread
        rw [unread]
        exact (foreign_toTimedelta pb wait).bind _
    · refine iff_of_false (foreign_decodeServerInfo pb ?_) fun all => horizon all.1
      rw [unread]
      exact (foreign_toTimedelta pb horizon).bind _
  · rw [if_neg times] at unread
    by_cases valid : (resp.serverTime.getD {}).Valid
    · refine iff_of_true ?_ ⟨valid, fun readable => absurd readable times⟩
      obtain ⟨text, printed⟩ := pb.toJsonString_valid _ valid
      simp only [printed] at unread
      rw [decodeServerInfo, unread]
      exact handled_error trivial
    · refine iff_of_false (foreign_decodeServerInfo pb ?_) fun all => valid all.1
      obtain ⟨msg, raised⟩ := pb.toJsonString_invalid _ valid
      simp only [raised] at unread
      rw [unread]
      exact ⟨_, rfl, rfl⟩

/-! ## The calls -/

variable {F : Type} [PyFloat F] (policy : RetryPolicy F)
  (headers : Option (String × Option String)) (random : ℕ → F) (jobs : List EnqueueRequest)

/-- When a request has been sent and its RPC answered, the response is decoded. -/
theorem sendBatch_result {α β : Type} {request : List Pb.EnqueueRequest}
    {outcomes : ℕ → Except PyError α} {resp : α} (decode : ℕ → α → Except PyError β)
    (answered : Answers policy (enqueueRetryableCodes request) outcomes resp) :
    (sendBatch policy request outcomes random decode).result = decode request.length resp := by
  rw [sendBatch, (withRetry_ok_iff policy _ outcomes random resp).mpr answered]
  rfl

/-- Once the RPC has succeeded, each of the three calls returns a value or raises one of the
library's own errors exactly when it meets no time that protobuf or Python cannot represent. -/
theorem responses_handled_iff :
    (∀ request outcomes resp, requestJobs pb headers jobs = .ok request →
        Answers policy (enqueueRetryableCodes request) outcomes resp →
        (Handled (enqueueBatch pb policy headers random jobs outcomes).result ↔
          (resp.results.length = jobs.length → resp.Readable))) ∧
      (∀ request outcomes resp, requestJobs pb headers jobs = .ok request →
        Answers policy (enqueueRetryableCodes request) outcomes resp →
        (Handled (enqueueAtomic pb policy headers random jobs outcomes).result ↔ resp.Readable)) ∧
      ∀ outcomes resp, Answers policy RETRYABLE_CODES outcomes resp →
        (Handled (getServerInfo pb policy random outcomes).result ↔
          (resp.serverVersion ≠ "" → resp.Readable)) := by
  refine ⟨?_, ?_, ?_⟩
  · intro request outcomes resp sent answered
    simp only [enqueueBatch, sent, sendBatch_result policy random _ answered,
      length_requestJobs sent]
    exact handled_decodeBatch_iff pb jobs.length resp
  · intro request outcomes resp sent answered
    simp only [enqueueAtomic, sent, sendBatch_result policy random _ answered,
      length_requestJobs sent]
    exact handled_decodeAtomic_iff pb jobs.length resp
  · intro outcomes resp answered
    rw [getServerInfo, (withRetry_ok_iff policy _ outcomes random resp).mpr answered]
    exact handled_decodeServerInfo_iff pb resp

/-- A rejection of a job scheduled for `seconds`, by a server without a horizon. -/
def tooFar (seconds : ℤ) : Pb.JobRejection :=
  ⟨some (.scheduledTooFar (some ⟨0, 0⟩) (some ⟨seconds, 0⟩))⟩

/-- A batch response that rejects a job for an instant protobuf can represent is decoded. -/
theorem responses_handled_iff_epoch :
    Handled (enqueueBatch .checked (.init : RetryPolicy Binary64) none (fun _ => .finite 0)
      [keylessJob] fun _ => .ok ⟨[⟨some (.rejection (tooFar 0))⟩]⟩).result := by
  refine ((responses_handled_iff .checked (.init : RetryPolicy Binary64) none (fun _ => .finite 0)
    [keylessJob]).1 _ _ _ rfl (answers_const .init _ _)).mpr fun _ jr member => ?_
  obtain rfl := List.mem_singleton.mp member
  rintro _ ⟨⟩ horizon actual ⟨⟩
  decide

/-- A job rejected for an instant one second past the year 9999 makes `enqueue_batch` raise the
`ValueError` of protobuf, and so `enqueue_atomic`. -/
theorem tooFar_not_handled :
    ¬ Handled (enqueueBatch .checked (.init : RetryPolicy Binary64) none (fun _ => .finite 0)
        [keylessJob] fun _ => .ok ⟨[⟨some (.rejection (tooFar 253402300800))⟩]⟩).result ∧
      ¬ Handled (enqueueAtomic .checked (.init : RetryPolicy Binary64) none (fun _ => .finite 0)
        [keylessJob]
        fun _ => .ok ⟨some (.rejection [⟨0, some (tooFar 253402300800)⟩])⟩).result := by
  have sent : requestJobs .checked none [keylessJob] =
      .ok [{ queue := "emails", jobType := "send" }] := rfl
  have unreadable : ¬ (tooFar 253402300800).Readable := fun readable =>
    absurd (readable _ _ rfl).2 (by decide)
  constructor
  · simp only [enqueueBatch, sent]
    rw [sendBatch_result .init _ _ (answers_const .init _ _),
      handled_decodeBatch_iff]
    intro handled
    exact unreadable (handled rfl _ (List.mem_singleton_self _) _ rfl)
  · simp only [enqueueAtomic, sent]
    rw [sendBatch_result .init _ _ (answers_const .init _ _),
      handled_decodeAtomic_iff]
    intro handled
    exact unreadable (handled _ rfl _ (List.mem_singleton_self _) _ rfl)

end SeppPy
