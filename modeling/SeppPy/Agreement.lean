import SeppPy.Decoding

/-! # The two decoders of a job

`job_from_pb` and `dead_letter_record_from_pb` repeat the same checks and mappings by hand. They
differ in the time they read besides `enqueued_at`: where either of these times is valid, the
decoders accept the same jobs, read the same fields and fail with the same exception.
-/

namespace SeppPy

/-- The record describes the job, field by field. -/
structure Describes (record : DeadLetterRecord) (job : Job) : Prop where
  id : job.ctx.id = record.jobId
  queue : job.ctx.queue = record.queue
  jobType : job.ctx.jobType = record.jobType
  payload : job.payload = record.payload
  priority : job.ctx.priority = record.priority
  maxAttempts : job.ctx.maxAttempts = record.maxAttempts
  custom : job.ctx.custom = record.custom
  traceContext : job.ctx.traceContext = record.traceContext
  enqueuedAt : job.ctx.enqueuedAt = record.enqueuedAt
  scheduledAt : job.ctx.scheduledAt = record.scheduledAt

variable {pb : Protobuf} {j : Pb.Job} {r : Pb.DeadLetterRecord}

/-- Check by check, the decoders do the same. -/
theorem agree_jobFromPb_deadLetterRecordFromPb (carried : r.job = some j)
    (leased : (j.leaseExpiresAt.getD {}).Representable)
    (failed : (r.failedAt.getD {}).Representable) (workerId : Option String) :
    Except.Agree (fun job record => Describes record job) (jobFromPb pb j workerId)
      (deadLetterRecordFromPb pb r) := by
  simp only [jobFromPb, deadLetterRecordFromPb, carried]
  apply Except.Agree.bind_same
  intro _ _
  apply Except.Agree.bind_same
  intro _ _
  apply Except.Agree.bind_same
  intro priority _
  apply Except.Agree.bind_same
  intro enqueuedAt _
  rw [requireTime_of_representable pb leased, requireTime_of_representable pb failed]
  apply Except.Agree.bind_same (Dict.fill requireValue j.custom.items .empty)
  intro custom _
  exact .ok ⟨rfl, rfl, rfl, rfl, rfl, rfl, rfl, rfl, rfl, rfl⟩

variable (pb) in
/-- The two decoders of a wire job agree wherever their own times are valid. -/
theorem decoders_agree (workerId : Option String) (carried : r.job = some j)
    (leased : (j.leaseExpiresAt.getD {}).Representable)
    (failed : (r.failedAt.getD {}).Representable) :
    ((∃ job, jobFromPb pb j workerId = .ok job) ↔
        ∃ record, deadLetterRecordFromPb pb r = .ok record) ∧
      (∀ job record, jobFromPb pb j workerId = .ok job → deadLetterRecordFromPb pb r = .ok record →
        Describes record job) ∧
      ∀ err, jobFromPb pb j workerId = .error err ↔ deadLetterRecordFromPb pb r = .error err := by
  have agree : Except.Agree (fun job record => Describes record job) (jobFromPb pb j workerId)
      (deadLetterRecordFromPb pb r) :=
    agree_jobFromPb_deadLetterRecordFromPb carried leased failed workerId
  refine ⟨agree.exists_ok_iff, ?_, ?_⟩
  · intro job record accepted retained
    exact agree.related accepted retained
  · intro err
    exact agree.error_iff

/-- A job with a trace context that is not one and a schedule before the epoch. -/
def tracelessMessage : Pb.Job where
  id := "traceless"
  jobType := "email"
  payload := some ⟨[104, 105], "text"⟩
  priority := 4
  traceContext := some ⟨"garbage", none⟩
  enqueuedAt := some ⟨1700000000, 1⟩
  attempt := 1
  maxAttempts := 4
  leaseExpiresAt := some ⟨1700000060, 0⟩
  custom := .empty
  scheduledAt := some ⟨-1, 0⟩
  queue := "emails"

/-- Both decoders accept it without the trace context and the schedule. -/
theorem decoders_agree_traceless :
    ∃ job record, jobFromPb .checked tracelessMessage none = .ok job ∧
      deadLetterRecordFromPb .checked ⟨some tracelessMessage, 1, some ⟨1700000100, 0⟩, 4, none⟩ =
        .ok record ∧
      Describes record job := by
  obtain ⟨job, read⟩ : ∃ job, jobFromPb .checked tracelessMessage none = .ok job :=
    (exists_jobFromPb_iff tracelessMessage none).mpr (by decide)
  obtain ⟨both, described, _⟩ := decoders_agree .checked
    (r := ⟨some tracelessMessage, 1, some ⟨1700000100, 0⟩, 4, none⟩) none rfl (by decide)
    (by decide)
  obtain ⟨record, retained⟩ := both.mp ⟨job, read⟩
  exact ⟨job, record, read, retained, described job record read retained⟩

end SeppPy
