import SeppPy.Convert

/-! # What the job decoders accept and how they fail

Each check of `job_from_pb` and `dead_letter_record_from_pb` is characterized once: when it
succeeds, and when it raises something other than a `JobConversionError`. Only the time checks can
do the latter, when the time is so far out of range that its text cannot be formatted. The
checks in their order are one computation, `checkJob`, and each decoder only builds its result from
what they return.
-/

namespace SeppPy

namespace Pb

/-- The times the client accepts: from the epoch to the year 9999. -/
def Timestamp.Representable (ts : Timestamp) : Prop :=
  0 ≤ ts.seconds ∧ ts.seconds ≤ 253402300799 ∧ 0 ≤ ts.nanos ∧ ts.nanos ≤ 999999999

instance (ts : Timestamp) : Decidable ts.Representable :=
  inferInstanceAs (Decidable (_ ∧ _ ∧ _ ∧ _))

theorem Timestamp.Representable.valid {ts : Timestamp} (times : ts.Representable) : ts.Valid := by
  obtain ⟨lower, upper, nanos⟩ := times
  exact ⟨by omega, upper, nanos⟩

/-- Every entry of a `custom` map has a value. -/
def CustomSet (custom : Dict String PrimitiveValue) : Prop :=
  ∀ item ∈ custom.items, item.2.value.isSome = true

instance (custom : Dict String PrimitiveValue) : Decidable (CustomSet custom) :=
  inferInstanceAs (Decidable (∀ item ∈ custom.items, _))

/-- The checks both decoders make before they look at a time. -/
def Job.Identified (j : Job) : Prop := j.id ≠ "" ∧ j.jobType ≠ "" ∧ j.priority ≤ 9

instance (j : Job) : Decidable j.Identified := inferInstanceAs (Decidable (_ ∧ _ ∧ _))

/-- A job the client can hand to a handler; a time that is absent reads as the epoch. -/
def Job.WellFormed (j : Job) : Prop :=
  j.Identified ∧ (j.enqueuedAt.getD {}).Representable ∧ (j.leaseExpiresAt.getD {}).Representable ∧
    CustomSet j.custom

instance (j : Job) : Decidable j.WellFormed := inferInstanceAs (Decidable (_ ∧ _ ∧ _ ∧ _))

/-- The decoder reaches a time that `ToJsonString` cannot format either. -/
def Job.Unprintable (j : Job) : Prop :=
  j.Identified ∧ (¬ (j.enqueuedAt.getD {}).Valid ∨
    (j.enqueuedAt.getD {}).Representable ∧ ¬ (j.leaseExpiresAt.getD {}).Valid)

instance (j : Job) : Decidable j.Unprintable := inferInstanceAs (Decidable (_ ∧ (_ ∨ _ ∧ _)))

end Pb

/-- The computation raises something that `except JobConversionError` does not catch. -/
def Leaks {α : Type} (x : Except PyError α) : Prop :=
  ∃ err, x = .error err ∧ err.isJobConversionError = false

private theorem not_leaks_ok {α : Type} (value : α) : ¬ Leaks (.ok value : Except PyError α) := by
  rintro ⟨_, failed, _⟩
  contradiction

private theorem not_leaks_conversionError {α : Type} (message : String) :
    ¬ Leaks (conversionError message : Except PyError α) := by
  rintro ⟨_, failed, uncaught⟩
  cases failed
  contradiction

private theorem leaks_bind_iff {α β : Type} {x : Except PyError α} {f : α → Except PyError β} :
    Leaks (x >>= f) ↔ Leaks x ∨ ∃ a, x = .ok a ∧ Leaks (f a) := by
  constructor
  · rintro ⟨err, failed, uncaught⟩
    rcases Except.bind_eq_error_iff.mp failed with first | ⟨a, passed, later⟩
    · exact .inl ⟨err, first, uncaught⟩
    · exact .inr ⟨a, passed, err, later, uncaught⟩
  · rintro (⟨err, failed, uncaught⟩ | ⟨a, passed, err, failed, uncaught⟩)
    · exact ⟨err, Except.bind_eq_error_iff.mpr (.inl failed), uncaught⟩
    · exact ⟨err, Except.bind_eq_error_iff.mpr (.inr ⟨a, passed, failed⟩), uncaught⟩

/-! ## The single checks -/

private theorem requireField_ok_iff {value message : String} {u : Unit} :
    requireField value message = .ok u ↔ value ≠ "" := by
  rw [requireField, conversionError, Except.ite_error_eq_ok_iff]
  exact and_iff_left rfl

private theorem not_leaks_requireField (value message : String) : ¬ Leaks
    (requireField value message) := by
  simp only [requireField]
  split
  · exact not_leaks_conversionError message
  · exact not_leaks_ok ()

private theorem requirePriority_ok_iff {value : ℕ} {priority : Priority} :
    requirePriority value = .ok priority ↔ priority.value = value := by
  obtain ⟨n, bound⟩ := priority
  simp only [requirePriority, Priority.init]
  split
  · next found =>
    split at found
    · contradiction
    · next inRange =>
      cases found
      simp [eq_comm]
  · next found =>
    split at found
    · next outOfRange =>
      refine ⟨(nomatch ·), ?_⟩
      rintro rfl
      omega
    · contradiction

private theorem exists_requirePriority_iff (value : ℕ) :
    (∃ priority, requirePriority value = .ok priority) ↔ value ≤ 9 := by
  constructor
  · rintro ⟨priority, passed⟩
    exact requirePriority_ok_iff.mp passed ▸ priority.inRange
  · intro bound
    exact ⟨⟨value, bound⟩, requirePriority_ok_iff.mpr rfl⟩

private theorem not_leaks_requirePriority (value : ℕ) : ¬ Leaks (requirePriority value) := by
  simp only [requirePriority]
  split
  · exact not_leaks_ok _
  · exact not_leaks_conversionError _

variable (pb : Protobuf)

/-- A timestamp is read exactly when it is representable, and then truncated to microseconds. -/
theorem timestampToDatetime_eq (ts : Pb.Timestamp) :
    timestampToDatetime pb ts = if ts.Representable then some ts.toUtc else none := by
  simp only [timestampToDatetime]
  split
  · next negative =>
    rw [if_neg]
    rintro ⟨seconds, _, nanos, _⟩
    omega
  · next nonnegative =>
    by_cases valid : ts.Valid
    · have times : ts.Representable := ⟨by omega, valid.2.1, valid.2.2⟩
      rw [pb.toDatetime_valid ts valid, if_pos times]
    · obtain ⟨msg, failed⟩ := pb.toDatetime_invalid ts valid
      rw [failed, if_neg fun times => valid times.valid]

theorem requireTime_of_representable {what : String} {ts : Pb.Timestamp}
    (times : ts.Representable) : requireTime pb what ts = .ok ts.toUtc := by
  simp only [requireTime, timestampToDatetime_eq, if_pos times]

private theorem requireTime_ok_iff {what : String} {ts : Pb.Timestamp} {dt : Datetime} :
    requireTime pb what ts = .ok dt ↔ ts.Representable ∧ dt = ts.toUtc := by
  by_cases times : ts.Representable
  · rw [requireTime_of_representable pb times, Except.ok.injEq, eq_comm]
    exact (and_iff_right times).symm
  · refine ⟨fun passed => ?_, fun passed => absurd passed.1 times⟩
    simp only [requireTime, timestampToDatetime_eq, if_neg times, Except.bind_eq_ok_iff] at passed
    obtain ⟨_, _, impossible⟩ := passed
    contradiction

/-- The time check leaks exactly where the message cannot be formatted. -/
theorem leaks_requireTime_iff (what : String) (ts : Pb.Timestamp) :
    Leaks (requireTime pb what ts) ↔ ¬ ts.Valid := by
  by_cases times : ts.Representable
  · rw [requireTime_of_representable pb times]
    exact iff_of_false (not_leaks_ok _) (not_not_intro times.valid)
  · simp only [requireTime, timestampToDatetime_eq, if_neg times, leaks_bind_iff]
    by_cases valid : ts.Valid
    · obtain ⟨text, printed⟩ := pb.toJsonString_valid ts valid
      refine iff_of_false ?_ (not_not_intro valid)
      rintro (leak | ⟨_, _, leak⟩)
      · exact not_leaks_ok text (printed ▸ leak)
      · exact not_leaks_conversionError _ leak
    · obtain ⟨msg, failed⟩ := pb.toJsonString_invalid ts valid
      exact iff_of_true (.inl ⟨_, failed, rfl⟩) valid

private theorem exists_requireValue_iff (key : String) (pv : Pb.PrimitiveValue) :
    (∃ value, requireValue key pv = .ok value) ↔ pv.value.isSome = true := by
  cases pv with
  | mk value => cases value <;> simp [requireValue, primitiveFromPb, conversionError]

private theorem not_leaks_requireValue (key : String) (pv : Pb.PrimitiveValue) :
    ¬ Leaks (requireValue key pv) := by
  simp only [requireValue]
  split
  · exact not_leaks_ok _
  · exact not_leaks_conversionError _

private theorem exists_customFill_iff (custom : Dict String Pb.PrimitiveValue) :
    (∃ filled, Dict.fill requireValue custom.items .empty = .ok filled) ↔ Pb.CustomSet custom := by
  simp only [Dict.fill_ok_iff, exists_requireValue_iff, Pb.CustomSet]

private theorem not_leaks_customFill (custom : Dict String Pb.PrimitiveValue) :
    ¬ Leaks (Dict.fill requireValue custom.items .empty) := by
  rintro ⟨err, failed, uncaught⟩
  obtain ⟨item, _, reason⟩ := Dict.fill_error failed
  exact not_leaks_requireValue item.1 item.2 ⟨err, reason, uncaught⟩

/-! ## The checks in order -/

/-- The checks both decoders make, in their order: `second` is the decoder's own time, `what` its
name for it. -/
def checkJob (what : String) (second : Pb.Timestamp) (j : Pb.Job) :
    Except PyError (Priority × Datetime × Datetime × Dict String Primitive) := do
  requireField j.id "job is missing required field `id`"
  requireField j.jobType "job is missing required field `job_type`"
  let priority ← requirePriority j.priority
  let enqueuedAt ← requireTime pb "job timestamp `enqueued_at`" (j.enqueuedAt.getD {})
  let secondTime ← requireTime pb what second
  let custom ← Dict.fill requireValue j.custom.items .empty
  return (priority, enqueuedAt, secondTime, custom)

variable {pb}

private theorem exists_checkJob_iff {what : String} {second : Pb.Timestamp} {j : Pb.Job} :
    (∃ checked, checkJob pb what second j = .ok checked) ↔
      j.Identified ∧ (j.enqueuedAt.getD {}).Representable ∧ second.Representable ∧
        Pb.CustomSet j.custom := by
  simp only [checkJob, Except.bind_eq_ok_iff, requireField_ok_iff, requireTime_ok_iff]
  constructor
  · rintro ⟨_, _, id, _, jobType, priority, inRange, _, ⟨enqueued, _⟩, _, ⟨times, _⟩, custom, set,
      _⟩
    exact ⟨⟨id, jobType, (exists_requirePriority_iff _).mp ⟨priority, inRange⟩⟩, enqueued, times,
      (exists_customFill_iff _).mp ⟨custom, set⟩⟩
  · rintro ⟨⟨id, jobType, bound⟩, enqueued, times, set⟩
    obtain ⟨priority, inRange⟩ := (exists_requirePriority_iff _).mpr bound
    obtain ⟨custom, filled⟩ := (exists_customFill_iff _).mpr set
    exact ⟨_, (), id, (), jobType, priority, inRange, _, ⟨enqueued, rfl⟩, _, ⟨times, rfl⟩, custom,
      filled, rfl⟩

private theorem leaks_checkJob_iff {what : String} {second : Pb.Timestamp} {j : Pb.Job} :
    Leaks (checkJob pb what second j) ↔
      j.Identified ∧ (¬ (j.enqueuedAt.getD {}).Valid ∨
        (j.enqueuedAt.getD {}).Representable ∧ ¬ second.Valid) := by
  simp only [checkJob, leaks_bind_iff, requireField_ok_iff, requireTime_ok_iff,
    leaks_requireTime_iff, not_leaks_requireField, not_leaks_requirePriority, not_leaks_customFill,
    false_or]
  constructor
  · rintro ⟨_, id, _, jobType, priority, inRange, times⟩
    refine ⟨⟨id, jobType, (exists_requirePriority_iff _).mp ⟨priority, inRange⟩⟩, ?_⟩
    rcases times with enqueued | ⟨_, ⟨enqueued, _⟩, later | ⟨_, _, _, _, leak⟩⟩
    · exact .inl enqueued
    · exact .inr ⟨enqueued, later⟩
    · exact absurd leak (not_leaks_ok _)
  · rintro ⟨⟨id, jobType, bound⟩, times⟩
    obtain ⟨priority, inRange⟩ := (exists_requirePriority_iff _).mpr bound
    refine ⟨(), id, (), jobType, priority, inRange, ?_⟩
    rcases times with enqueued | ⟨enqueued, later⟩
    · exact .inl enqueued
    · exact .inr ⟨_, ⟨enqueued, rfl⟩, .inl later⟩

section Built

variable {α β : Type} {x : Except PyError α} {build : α → β}

/-- Nothing fails after the checks, so a decoder succeeds exactly when they pass. -/
theorem exists_built_iff :
    (∃ value, (x >>= fun checked => .ok (build checked)) = .ok value) ↔
      ∃ checked, x = .ok checked := by
  simp only [Except.bind_eq_ok_iff]
  constructor
  · rintro ⟨_, checked, passed, _⟩
    exact ⟨checked, passed⟩
  · rintro ⟨checked, passed⟩
    exact ⟨_, checked, passed, rfl⟩

private theorem leaks_built_iff : Leaks (x >>= fun checked => .ok (build checked)) ↔ Leaks x := by
  simp only [leaks_bind_iff, not_leaks_ok, and_false, exists_false, or_false]

end Built

/-! ## The two decoders -/

variable (pb) in
/-- `job_from_pb` builds the job after its checks. -/
theorem jobFromPb_eq_built (j : Pb.Job) (workerId : Option String) :
    ∃ build : Priority → Datetime → Datetime → Dict String Primitive → Job,
      jobFromPb pb j workerId =
        checkJob pb "job timestamp `lease_expires_at`" (j.leaseExpiresAt.getD {}) j >>=
          fun (priority, enqueuedAt, leaseExpiresAt, custom) =>
            .ok (build priority enqueuedAt leaseExpiresAt custom) := by
  -- what the decoder builds is read off its own last step
  apply Exists.intro
  simp only [jobFromPb, checkJob, bind_assoc, pure_bind]
  rfl

/-- What `job_from_pb` returns, when it succeeds. -/
theorem jobFromPb_ok {j : Pb.Job} {workerId : Option String} {job : Job}
    (decoded : jobFromPb pb j workerId = .ok job) :
    ∃ priority custom, priority.value = j.priority ∧
      Dict.fill requireValue j.custom.items .empty = .ok custom ∧
      (j.enqueuedAt.getD {}).Representable ∧ (j.leaseExpiresAt.getD {}).Representable ∧
      job = {
        payload := j.payload.map payloadFromPb
        ctx := {
          id := j.id
          queue := j.queue
          jobType := j.jobType
          priority
          attempt := j.attempt
          maxAttempts := j.maxAttempts
          enqueuedAt := (j.enqueuedAt.getD {}).toUtc
          custom
          traceContext := j.traceContext.bind traceContextFromPb
          leaseExpiresAt := (j.leaseExpiresAt.getD {}).toUtc
          scheduledAt := scheduledAtFromPb pb j
          lease := ⟨j.id, j.attempt, workerId,
            datetimeToMillis (j.leaseExpiresAt.getD {}).toUtc⟩ } } := by
  simp only [jobFromPb, Except.bind_eq_ok_iff, requireTime_ok_iff] at decoded
  obtain ⟨_, _, _, _, priority, inRange, _, ⟨enqueued, rfl⟩, _, ⟨lease, rfl⟩, custom, filled,
    same⟩ := decoded
  exact ⟨priority, custom, requirePriority_ok_iff.mp inRange, filled, enqueued, lease,
    (Except.ok.inj same).symm⟩

/-- `job_from_pb` succeeds on exactly the well-formed jobs. -/
theorem exists_jobFromPb_iff (j : Pb.Job) (workerId : Option String) :
    (∃ job, jobFromPb pb j workerId = .ok job) ↔ j.WellFormed := by
  obtain ⟨build, built⟩ := jobFromPb_eq_built pb j workerId
  rw [built, exists_built_iff, exists_checkJob_iff]
  rfl

/-- `job_from_pb` raises anything but a `JobConversionError` exactly on the unprintable jobs. -/
theorem leaks_jobFromPb_iff (j : Pb.Job) (workerId : Option String) :
    Leaks (jobFromPb pb j workerId) ↔ j.Unprintable := by
  obtain ⟨build, built⟩ := jobFromPb_eq_built pb j workerId
  rw [built, leaks_built_iff, leaks_checkJob_iff]
  rfl

namespace Pb.DeadLetterRecord

/-- A record the client can return. -/
def WellFormed (r : Pb.DeadLetterRecord) : Prop :=
  ∃ j ∈ r.job, j.Identified ∧ (j.enqueuedAt.getD {}).Representable ∧
    (r.failedAt.getD {}).Representable ∧ Pb.CustomSet j.custom

instance (r : Pb.DeadLetterRecord) : Decidable r.WellFormed :=
  inferInstanceAs (Decidable (∃ j ∈ r.job, _))

/-- The decoder reaches a time that `ToJsonString` cannot format either. -/
def Unprintable (r : Pb.DeadLetterRecord) : Prop :=
  ∃ j ∈ r.job, j.Identified ∧ (¬ (j.enqueuedAt.getD {}).Valid ∨
    (j.enqueuedAt.getD {}).Representable ∧ ¬ (r.failedAt.getD {}).Valid)

instance (r : Pb.DeadLetterRecord) : Decidable r.Unprintable :=
  inferInstanceAs (Decidable (∃ j ∈ r.job, _))

end Pb.DeadLetterRecord

variable (pb) in
/-- `dead_letter_record_from_pb` builds the record after the checks of the job it carries. -/
theorem deadLetterRecordFromPb_eq_built {r : Pb.DeadLetterRecord} {j : Pb.Job}
    (carried : r.job = some j) :
    ∃ build : Priority → Datetime → Datetime → Dict String Primitive → DeadLetterRecord,
      deadLetterRecordFromPb pb r =
        checkJob pb "dead-letter timestamp `failed_at`" (r.failedAt.getD {}) j >>=
          fun (priority, enqueuedAt, failedAt, custom) =>
            .ok (build priority enqueuedAt failedAt custom) := by
  apply Exists.intro
  simp only [deadLetterRecordFromPb, carried, checkJob, bind_assoc, pure_bind]
  rfl

/-- What `dead_letter_record_from_pb` returns, when it succeeds. -/
theorem deadLetterRecordFromPb_ok {r : Pb.DeadLetterRecord} {record : DeadLetterRecord}
    (decoded : deadLetterRecordFromPb pb r = .ok record) :
    ∃ j priority custom, r.job = some j ∧ j.jobType ≠ "" ∧ priority.value = j.priority ∧
      Dict.fill requireValue j.custom.items .empty = .ok custom ∧
      record = {
        queue := j.queue
        jobId := j.id
        jobType := j.jobType
        payload := j.payload.map payloadFromPb
        priority
        maxAttempts := j.maxAttempts
        custom
        traceContext := j.traceContext.bind traceContextFromPb
        enqueuedAt := (j.enqueuedAt.getD {}).toUtc
        scheduledAt := scheduledAtFromPb pb j
        cause := causeFromPb r.cause
        failedAt := (r.failedAt.getD {}).toUtc
        finalAttempt := r.finalAttempt
        lastReason := r.lastReason } := by
  unfold deadLetterRecordFromPb at decoded
  split at decoded
  · contradiction
  · next j carried =>
    simp only [Except.bind_eq_ok_iff, requireField_ok_iff, requireTime_ok_iff] at decoded
    obtain ⟨_, _, _, jobType, priority, inRange, _, ⟨_, rfl⟩, _, ⟨_, rfl⟩, custom, filled,
      same⟩ := decoded
    exact ⟨j, priority, custom, carried, jobType, requirePriority_ok_iff.mp inRange, filled,
      (Except.ok.inj same).symm⟩

/-- `dead_letter_record_from_pb` succeeds on exactly the well-formed records. -/
theorem exists_deadLetterRecordFromPb_iff (r : Pb.DeadLetterRecord) :
    (∃ record, deadLetterRecordFromPb pb r = .ok record) ↔ r.WellFormed := by
  cases carried : r.job with
  | none =>
    simp [deadLetterRecordFromPb, Pb.DeadLetterRecord.WellFormed, conversionError, carried]
  | some j =>
    obtain ⟨build, built⟩ := deadLetterRecordFromPb_eq_built pb carried
    rw [built, exists_built_iff, exists_checkJob_iff]
    simp only [Pb.DeadLetterRecord.WellFormed, carried, Option.mem_def, Option.some.injEq,
      exists_eq_left']

/-- `dead_letter_record_from_pb` raises anything but a `JobConversionError` exactly on the
unprintable records. -/
theorem leaks_deadLetterRecordFromPb_iff (r : Pb.DeadLetterRecord) :
    Leaks (deadLetterRecordFromPb pb r) ↔ r.Unprintable := by
  cases carried : r.job with
  | none =>
    simp [deadLetterRecordFromPb, Pb.DeadLetterRecord.Unprintable, not_leaks_conversionError,
      carried]
  | some j =>
    obtain ⟨build, built⟩ := deadLetterRecordFromPb_eq_built pb carried
    rw [built, leaks_built_iff, leaks_checkJob_iff]
    simp only [Pb.DeadLetterRecord.Unprintable, carried, Option.mem_def, Option.some.injEq,
      exists_eq_left']

end SeppPy
