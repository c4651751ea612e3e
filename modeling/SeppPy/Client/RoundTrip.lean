import SeppPy.Client.Enqueue
import SeppPy.Encoding

/-! # From the producer to the handler

What a producer enqueues travels through the encoder, the injection of trace headers, the server and
the decoder. The server is assumed to hand out the fields of the message as they were sent, and to
add the fields of its own that the decoder asks for. The handler then sees the producer's request:
only a schedule before the epoch and an absent trace context are replaced.
-/

namespace SeppPy

/-- The server hands out what was enqueued; a map may change its order. -/
structure Pb.Job.Carries (j : Pb.Job) (m : Pb.EnqueueRequest) : Prop where
  queue : j.queue = m.queue
  jobType : j.jobType = m.jobType
  payload : j.payload = m.payload
  custom : ∀ key, j.custom.get? key = m.custom.get? key
  traceContext : j.traceContext = m.traceContext
  scheduledAt : j.scheduledAt = m.scheduledAt

/-- The fields of the server's own are such that the decoder accepts them. -/
structure Pb.Job.Issued (j : Pb.Job) : Prop where
  id : j.id ≠ ""
  priority : j.priority ≤ 9
  enqueuedAt : (j.enqueuedAt.getD {}).Representable
  leaseExpiresAt : (j.leaseExpiresAt.getD {}).Representable

/-- The job is what was asked for, with `headers` in place of an absent trace context. -/
structure Job.SeenAs (headers : Option (String × Option String)) (req : EnqueueRequest)
    (job : Job) : Prop where
  queue : job.ctx.queue = req.queue
  jobType : job.ctx.jobType = req.jobType
  payload : job.payload = req.payload
  custom : ∀ key, job.ctx.custom.get? key = req.custom.get? key
  ownTrace : ∀ tc ∈ req.traceContext, job.ctx.traceContext = some tc
  injectedTrace : req.traceContext = none → job.ctx.traceContext =
    headers.bind fun (traceparent, tracestate) =>
      traceContextFromPb ⟨traceparent, tracestate.filter (· ≠ "")⟩
  scheduledAt : job.ctx.scheduledAt =
    (req.scheduledAt.filter fun dt => decide (0 ≤ dt.instant)).map Datetime.asUtc

variable {pb : Protobuf} {req : EnqueueRequest} {m sent : Pb.EnqueueRequest} {j : Pb.Job}

/-! ## The fields that may change on the way -/

/-- Injection touches the trace context only, and only where there is none. -/
theorem getElem?_injectTraceIntoJobs {headers : Option (String × Option String)}
    {messages : List Pb.EnqueueRequest} {i : ℕ} (placed : messages[i]? = some m)
    (injected : (injectTraceIntoJobs headers messages)[i]? = some sent) :
    sent = { m with
      traceContext := m.traceContext.or (headers.map fun (traceparent, tracestate) =>
        ⟨traceparent, tracestate.filter (· ≠ "")⟩) } := by
  unfold injectTraceIntoJobs at injected
  cases headers with
  | none =>
    cases placed.symm.trans injected
    cases m with
    | mk => simp
  | some header =>
    simp only [List.getElem?_map, placed, Option.map_some, Option.some.injEq] at injected
    cases own : m.traceContext with
    | none => simpa [own, eq_comm] using injected
    | some tc =>
      rw [own] at injected
      subst injected
      cases m with
      | mk => simp_all

/-- A map that was sent and handed out reads as the producer's map. -/
theorem get?_custom_of_carries {custom custom' : Dict String Primitive}
    {wire : Dict String Pb.PrimitiveValue}
    (filled : Dict.fill (fun _ value => primitiveToPb value) custom.items .empty = .ok wire)
    (carried : ∀ key, j.custom.get? key = wire.get? key)
    (read : Dict.fill requireValue j.custom.items .empty = .ok custom') (key : String) :
    custom'.get? key = custom.get? key := by
  refine Option.ext fun value => ?_
  simp only [Dict.get?_fill_iff read, carried, Dict.get?_fill_iff filled, requireValue_ok_iff]
  constructor
  · rintro ⟨pv, ⟨value', own, converted⟩, back⟩
    rw [primitiveFromPb_of_primitiveToPb converted, Option.some.injEq] at back
    exact back ▸ own
  · intro own
    obtain ⟨pv, converted, _⟩ := get?_of_customSent filled own
    exact ⟨pv, ⟨value, own, converted⟩, primitiveFromPb_of_primitiveToPb converted⟩

/-- Every value of such a map is set, so the decoder accepts it. -/
theorem customSet_of_carries {custom : Dict String Primitive} {wire : Dict String Pb.PrimitiveValue}
    (filled : Dict.fill (fun _ value => primitiveToPb value) custom.items .empty = .ok wire)
    (carried : ∀ key, j.custom.get? key = wire.get? key) : Pb.CustomSet j.custom := by
  rintro ⟨key, pv⟩ member
  rw [← Dict.get?_eq_some_iff, carried, Dict.get?_fill_iff filled] at member
  obtain ⟨value, _, converted⟩ := member
  obtain ⟨set, present, _⟩ := Option.map_eq_some_iff.mp (primitiveFromPb_of_primitiveToPb converted)
  exact Option.isSome_iff_exists.mpr ⟨set, present⟩

/-- A schedule that was sent is read as the same instant, and one before the epoch is not sent. -/
theorem scheduledAtFromPb_of_sent (exact : pb.Exact) {scheduledAt : Option Datetime}
    (converted : setOptional pb.fromDatetime
      (scheduledAt.filter fun dt => decide (0 ≤ datetimeToMillis dt)) = .ok j.scheduledAt) :
    scheduledAtFromPb pb j =
      (scheduledAt.filter fun dt => decide (0 ≤ dt.instant)).map Datetime.asUtc := by
  have nonnegative (dt : Datetime) : 0 ≤ datetimeToMillis dt ↔ 0 ≤ dt.instant := by
    simp only [datetimeToMillis]
    omega
  simp only [nonnegative] at converted
  rcases setOptional_ok_iff.mp converted with ⟨absent, unset⟩ | ⟨dt, ts, present, done, set⟩
  · rw [scheduledAtFromPb, unset, absent]
    rfl
  · have later : 0 ≤ dt.instant := by
      have passed := (Option.filter_eq_some_iff.mp present).2
      simpa using passed
    obtain ⟨valid, rfl⟩ := exact.fromDatetime dt ts done
    have readable : (Pb.Timestamp.ofNanoseconds (dt.instant * 1000)).Representable :=
      ⟨by simp only [Pb.Timestamp.ofNanoseconds]; omega, valid.2.1, valid.2.2⟩
    rw [scheduledAtFromPb, set, present]
    simp only [timestampToDatetime_eq, if_pos readable, toUtc_ofNanoseconds, Option.map_some,
      Datetime.asUtc]

/-! ## The round trip -/

/-- What a producer enqueues is what a handler sees. -/
theorem job_seen_as_enqueued (exact : pb.Exact) (req : EnqueueRequest)
    (headers : Option (String × Option String)) (messages : List Pb.EnqueueRequest) (i : ℕ)
    (m sent : Pb.EnqueueRequest) (encoded : enqueueRequestToPb pb req = .ok m)
    (placed : messages[i]? = some m)
    (injected : (injectTraceIntoJobs headers messages)[i]? = some sent) (j : Pb.Job)
    (carries : j.Carries sent) (issued : j.Issued) (workerId : Option String) :
    ∃ job, jobFromPb pb j workerId = .ok job ∧ job.SeenAs headers req := by
  obtain ⟨maxAttempts, custom, scheduledAt, _, filled, scheduled, rfl⟩ :=
    enqueueRequestToPb_ok_iff.mp encoded
  obtain rfl := getElem?_injectTraceIntoJobs placed injected
  have wellFormed : j.WellFormed := by
    refine ⟨⟨issued.id, ?_, issued.priority⟩, issued.enqueuedAt, issued.leaseExpiresAt,
      customSet_of_carries filled carries.custom⟩
    rw [carries.jobType]
    exact req.jobTypeNonempty
  have accepted : ∃ job, jobFromPb pb j workerId = .ok job :=
    (exists_jobFromPb_iff j workerId).mpr wellFormed
  obtain ⟨job, decoded⟩ := accepted
  obtain ⟨priority, custom', _, read, _, _, rfl⟩ := jobFromPb_ok decoded
  refine ⟨_, decoded, ?_⟩
  exact {
    queue := carries.queue
    jobType := carries.jobType
    payload := by
      simp only [carries.payload, Option.map_map]
      exact Option.map_id_apply
    custom := get?_custom_of_carries filled carries.custom read
    ownTrace := fun tc own => by
      simp only [carries.traceContext, Option.mem_def.mp own, Option.map_some, Option.some_or,
        Option.bind_some, traceContextFromPb_traceContextToPb]
    injectedTrace := fun none => by
      simp only [carries.traceContext, none, Option.map_none, Option.none_or, Option.bind_map]
      rfl
    scheduledAt := scheduledAtFromPb_of_sent exact (carries.scheduledAt ▸ scheduled) }

/-- A job with an empty payload, a flag and a naive schedule. -/
def flaggedRequest : EnqueueRequest :=
  { keylessJob with
    payload := some ⟨[], "text/plain"⟩
    custom := .set .empty "urgent" (.bool true)
    scheduledAt := some ⟨1500, none⟩ }

/-- Its message. -/
def flaggedMessage : Pb.EnqueueRequest where
  queue := "emails"
  jobType := "send"
  payload := some ⟨[], "text/plain"⟩
  custom := .set .empty "urgent" ⟨some (.bool true)⟩
  scheduledAt := some ⟨0, 1500000⟩

/-- The message as the server hands it out. -/
def flaggedDelivery : Pb.Job where
  id := "job"
  jobType := "send"
  payload := some ⟨[], "text/plain"⟩
  priority := 1
  traceContext := none
  enqueuedAt := some ⟨0, 0⟩
  attempt := 1
  maxAttempts := 3
  leaseExpiresAt := some ⟨30, 0⟩
  custom := .set .empty "urgent" ⟨some (.bool true)⟩
  scheduledAt := some ⟨0, 1500000⟩
  queue := "emails"

/-- Without trace headers the handler sees the flagged request as it was enqueued. -/
theorem job_seen_as_enqueued_flagged :
    ∃ job, jobFromPb .strict flaggedDelivery none = .ok job ∧ job.SeenAs none flaggedRequest :=
  job_seen_as_enqueued Protobuf.strict_exact flaggedRequest none [flaggedMessage] 0 flaggedMessage
    flaggedMessage rfl rfl rfl flaggedDelivery ⟨rfl, rfl, rfl, fun _ => rfl, rfl, rfl⟩
    ⟨by decide, by decide, by decide, by decide⟩ none

end SeppPy
