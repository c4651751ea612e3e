import SeppPy.Client.Deliveries
import SeppPy.Encoding

/-! # Replaying a dead letter

A drained record is gone from the server, so what can be done with it is decided by the decoder, by
`to_enqueue_request` and by the encoder together. The decoder insists on an id and a job type; the
constructor of `EnqueueRequest` insists on a queue as well. A record without a queue is therefore
returned, but cannot be replayed, and every other record is replayed field by field.
-/

namespace SeppPy

/-- The number is one that an `int_value` can hold. -/
def Pb.PrimitiveValue.Fits (pv : PrimitiveValue) : Prop :=
  ∀ n, pv.value = some (.int n) → -2 ^ 63 ≤ n ∧ n < 2 ^ 63

/-- The numbers of the message are ones that its fields, an uint32 and int64s, can hold. -/
structure Pb.Job.Fits (j : Pb.Job) : Prop where
  maxAttempts : j.maxAttempts < 2 ^ 32
  custom : ∀ item ∈ j.custom.items, item.2.Fits

/-- The message replays the job into its queue, as a fresh job that runs now. -/
structure Pb.EnqueueRequest.Replays (m : Pb.EnqueueRequest) (j : Pb.Job) : Prop where
  queue : m.queue = j.queue
  jobType : m.jobType = j.jobType
  payload : m.payload = j.payload
  priority : m.priority = some j.priority
  custom : ∀ key, m.custom.get? key = j.custom.get? key
  traceContext : m.traceContext =
    j.traceContext.filter fun tc => (validateTraceparent tc.traceparent).isOk
  maxAttempts : m.maxAttempts = if j.maxAttempts = 0 then none else some j.maxAttempts
  scheduledAt : m.scheduledAt = none
  idempotencyKey : m.idempotencyKey = none

/-- The record makes a request, and the request a message that replays the job. -/
def DeadLetterRecord.Replayable (pb : Protobuf) (record : DeadLetterRecord) (j : Pb.Job) : Prop :=
  ∃ req m, record.toEnqueueRequest = .ok req ∧ enqueueRequestToPb pb req = .ok m ∧ m.Replays j

/-! ## The fields -/

/-- What was read from a field that fits is sent as that field. -/
theorem primitiveToPb_of_primitiveFromPb {pv : Pb.PrimitiveValue} {value : Primitive}
    (fits : pv.Fits) (read : primitiveFromPb pv = some value) : primitiveToPb value = .ok pv := by
  obtain ⟨set⟩ := pv
  cases set with
  | none => cases read
  | some primitive =>
    cases primitive with
    | int n =>
      cases read
      exact if_pos (fits n rfl)
    | string _ | double _ | bool _ =>
      cases read
      rfl

/-- A trace context is carried over exactly when it is valid. -/
theorem map_traceContextToPb (traceContext : Option Pb.TraceContext) :
    (traceContext.bind traceContextFromPb).map traceContextToPb =
      traceContext.filter fun tc => (validateTraceparent tc.traceparent).isOk := by
  cases traceContext with
  | none => rfl
  | some tc =>
    obtain ⟨traceparent, tracestate⟩ := tc
    simp only [Option.bind_some, traceContextFromPb, TraceContext.init, Option.filter_some]
    split
    · next tc passed =>
      split at passed
      · next valid =>
        cases passed
        exact (if_pos (by rw [valid]; rfl)).symm
      · contradiction
    · next err failed =>
      split at failed
      · contradiction
      · next invalid =>
        rw [invalid]
        rfl

/-- The custom map of a record is sent as the map it was read from. -/
theorem customSent_of_read {wire : Dict String Pb.PrimitiveValue} {custom : Dict String Primitive}
    (fits : ∀ item ∈ wire.items, item.2.Fits)
    (read : Dict.fill requireValue wire.items .empty = .ok custom) :
    ∃ sent, Dict.fill (fun _ value => primitiveToPb value) custom.items .empty = .ok sent ∧
      ∀ key, sent.get? key = wire.get? key := by
  have back {key : String} {pv : Pb.PrimitiveValue} {value : Primitive}
      (present : wire.get? key = some pv) (converted : requireValue key pv = .ok value) :
      primitiveToPb value = .ok pv :=
    primitiveToPb_of_primitiveFromPb
      (fits (key, pv) ((Dict.get?_eq_some_iff wire key pv).mp present))
      (requireValue_ok_iff.mp converted)
  have all : ∀ item ∈ custom.items, ∃ pv, primitiveToPb item.2 = .ok pv := by
    rintro ⟨key, value⟩ member
    rw [← Dict.get?_eq_some_iff, Dict.get?_fill_iff read] at member
    obtain ⟨pv, present, converted⟩ := member
    exact ⟨pv, back present converted⟩
  have filled : ∃ sent,
      Dict.fill (fun _ value => primitiveToPb value) custom.items .empty = .ok sent :=
    (Dict.fill_ok_iff custom.items .empty).mpr all
  obtain ⟨sent, filled⟩ := filled
  refine ⟨sent, filled, fun key => Option.ext fun pv => ?_⟩
  rw [Dict.get?_fill_iff filled]
  constructor
  · rintro ⟨value, own, converted⟩
    obtain ⟨pv', present, decoded⟩ := (Dict.get?_fill_iff read key value).mp own
    cases (back present decoded).symm.trans converted
    exact present
  · intro present
    obtain ⟨value, decoded⟩ := (Dict.fill_ok_iff _ _).mp ⟨custom, read⟩ (key, pv)
      ((Dict.get?_eq_some_iff wire key pv).mp present)
    exact ⟨value, (Dict.get?_fill_iff read key value).mpr ⟨pv, present, decoded⟩, back present decoded⟩

/-! ## The replay -/

variable {pb : Protobuf} {record : DeadLetterRecord}

/-- The constructor asks for a queue and a job type; the priority has been checked before. -/
theorem toEnqueueRequest_eq (queueNonempty : record.queue ≠ "")
    (jobTypeNonempty : record.jobType ≠ "") :
    record.toEnqueueRequest = .ok {
      queue := record.queue
      jobType := record.jobType
      payload := record.payload
      priority := some record.priority
      maxAttempts := if record.maxAttempts = 0 then none else some record.maxAttempts
      custom := record.custom
      traceContext := record.traceContext
      queueNonempty
      jobTypeNonempty } := by
  simp only [DeadLetterRecord.toEnqueueRequest, EnqueueRequest.init, dif_neg queueNonempty,
    dif_neg jobTypeNonempty]
  rfl

private theorem toEnqueueRequest_of_no_queue (empty : record.queue = "") :
    record.toEnqueueRequest = .error (.valueError "queue name must not be empty") := by
  rw [DeadLetterRecord.toEnqueueRequest, EnqueueRequest.init, dif_pos empty]

/-- The number of attempts that was read is one the encoder can store, or is left out. -/
theorem maxAttempts_sent {n : ℕ} (fits : n < 2 ^ 32) :
    setOptional uint32 (if n = 0 then none else some (n : ℤ)) =
      .ok (if n = 0 then none else some n) := by
  split
  · rfl
  · refine setOptional_some ?_
    rw [uint32, if_pos (by omega), Int.toNat_natCast]

/-- A drained record can be replayed, with every field as it was, exactly when it has a queue. -/
theorem replayable_iff (r : Pb.DeadLetterRecord) (record : DeadLetterRecord)
    (decoded : deadLetterRecordFromPb pb r = .ok record) (fits : ∀ j ∈ r.job, j.Fits) :
    ∃ j, r.job = some j ∧ (record.Replayable pb j ↔ j.queue ≠ "") := by
  obtain ⟨j, priority, custom, carried, jobType, same, read, rfl⟩ := deadLetterRecordFromPb_ok decoded
  refine ⟨j, carried, ?_⟩
  constructor
  · rintro ⟨req, _, made, _⟩ empty
    rw [toEnqueueRequest_of_no_queue empty] at made
    contradiction
  · intro queue
    obtain ⟨maxAttempts, customFits⟩ := fits j carried
    obtain ⟨sent, filled, back⟩ := customSent_of_read customFits read
    refine ⟨_, _, toEnqueueRequest_eq queue jobType, enqueueRequestToPb_ok_iff.mpr
      ⟨_, sent, none, maxAttempts_sent maxAttempts, filled, rfl, rfl⟩, ?_⟩
    exact {
      queue := rfl
      jobType := rfl
      payload := by
        simp only [Option.map_map]
        exact Option.map_id_apply
      priority := congrArg some same
      custom := back
      traceContext := map_traceContextToPb j.traceContext
      maxAttempts := rfl
      scheduledAt := rfl
      idempotencyKey := rfl }

/-- A job that has used up its attempts, and its record. -/
def exhaustedRecord (queue : String) : Pb.DeadLetterRecord where
  job := some {
    id := "job"
    jobType := "email"
    payload := none
    priority := 1
    traceContext := none
    enqueuedAt := some ⟨0, 0⟩
    attempt := 3
    maxAttempts := 3
    leaseExpiresAt := none
    custom := .empty
    scheduledAt := none
    queue }
  cause := 1
  failedAt := some ⟨60, 0⟩
  finalAttempt := 3
  lastReason := none

variable (pb) in
private theorem exists_exhaustedRecord (queue : String) :
    ∃ record, deadLetterRecordFromPb pb (exhaustedRecord queue) = .ok record := by
  have epoch : (⟨0, 0⟩ : Pb.Timestamp).Representable := by decide
  have minute : (⟨60, 0⟩ : Pb.Timestamp).Representable := by decide
  refine (exists_deadLetterRecordFromPb_iff _).mpr ⟨_, rfl, ?_⟩
  exact ⟨⟨by simp, by simp, by simp⟩, epoch, minute, fun _ absent => nomatch absent⟩

private theorem fits_exhaustedRecord (queue : String) : ∀ j ∈
    (exhaustedRecord queue).job, j.Fits := by
  rintro _ ⟨⟩
  exact ⟨by norm_num, fun _ absent => nomatch absent⟩

/-- The record of a job from the emails queue can be replayed. -/
theorem replayable_iff_emails :
    ∃ record j, deadLetterRecordFromPb .checked (exhaustedRecord "emails") = .ok record ∧
      (exhaustedRecord "emails").job = some j ∧ record.Replayable .checked j := by
  obtain ⟨record, decoded⟩ := exists_exhaustedRecord .checked "emails"
  obtain ⟨j, carried, exactly⟩ := replayable_iff (exhaustedRecord "emails") record decoded
    (fits_exhaustedRecord "emails")
  refine ⟨record, j, decoded, carried, exactly.mpr ?_⟩
  cases carried
  decide

/-- A record without a queue is drained, decodes, and then makes the constructor raise. -/
theorem queueless_not_replayable :
    ∃ record, deadLetterRecordFromPb .checked (exhaustedRecord "") = .ok record ∧
      record.toEnqueueRequest = .error (.valueError "queue name must not be empty") ∧
      ∀ j, ¬ record.Replayable .checked j := by
  obtain ⟨record, decoded⟩ := exists_exhaustedRecord .checked ""
  obtain ⟨j, priority, custom, carried, _, _, _, made⟩ := deadLetterRecordFromPb_ok decoded
  have raises : record.toEnqueueRequest = .error (.valueError "queue name must not be empty") := by
    cases carried
    exact toEnqueueRequest_of_no_queue (by rw [made])
  refine ⟨record, decoded, raises, fun j => ?_⟩
  rintro ⟨req, _, returned, _⟩
  rw [raises] at returned
  contradiction

end SeppPy
