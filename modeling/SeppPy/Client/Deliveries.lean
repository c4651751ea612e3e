import SeppPy.Decoding

/-! # Decoding a batch of deliveries

`reserve` and `drain_dead_letters` decode the messages of a response one by one and skip those that
raise a `JobConversionError`. Both loops are `skipLoop`, so what escapes is exactly what the decoder
lets out under another type: the `ValueError` of a time that `ToJsonString` cannot format. One such
message fails the whole call; without one, exactly the well-formed messages are returned in order.
-/

namespace SeppPy

open SkipLoop

variable (pb : Protobuf)

/-- `jobs or None`. -/
def orNone {α : Type} (items : List α) : Option (List α) := if items.isEmpty then none else some items

/-- `SeppClient.reserve`, from the outcome of the `Reserve` call on. -/
def reserve (opts : ReserveOptions) :
    Except PyError Pb.ReserveResponse → Except PyError (Option (List Job))
  | .error (.rpc err) => .error (.sepp (reserveErrorFromRpc err))
  | .error err => .error err
  | .ok resp => do
    let jobs ← skipLoop (fun j => jobFromPb pb j opts.workerId) PyError.isJobConversionError
      resp.jobs []
    return orNone jobs

/-- `SeppClient.drain_dead_letters`, from the outcome of the `DrainDeadLetters` call on. -/
def drainDeadLetters :
    Except PyError Pb.DrainDeadLettersResponse → Except PyError (List DeadLetterRecord)
  | .error (.rpc err) => .error (.sepp (clientErrorFromRpc err))
  | .error err => .error err
  | .ok resp =>
    skipLoop (deadLetterRecordFromPb pb) PyError.isJobConversionError resp.records []

theorem orNone_eq_some_iff {α : Type} {items kept : List α} :
    orNone items = some kept ↔ items = kept ∧ items ≠ [] := by
  cases items with
  | nil =>
    refine iff_of_false ?_ fun both => both.2 rfl
    intro absent
    contradiction
  | cons item rest =>
    change some (item :: rest) = some kept ↔ _
    rw [Option.some.injEq]
    exact (and_iff_left (List.cons_ne_nil item rest)).symm

/-- Every job that `reserve` returns was decoded from a message of the response. -/
theorem decoded_of_reserve {opts : ReserveOptions} {resp : Pb.ReserveResponse} {jobs : List Job}
    {job : Job} (returned : reserve pb opts (.ok resp) = .ok (some jobs)) (member : job ∈ jobs) :
    ∃ j ∈ resp.jobs, jobFromPb pb j opts.workerId = .ok job := by
  obtain ⟨decoded, finished, some⟩ := Except.bind_eq_ok_iff.mp returned
  obtain ⟨rfl, _⟩ := orNone_eq_some_iff.mp (Except.ok.inj some)
  rcases decoded_of_skipLoop finished member with absent | found
  · contradiction
  · exact found

/-- The call raises nothing and returns, in response order, the well-formed jobs, or `None`. -/
def ReservesWellFormed (opts : ReserveOptions) (resp : Pb.ReserveResponse) : Prop :=
  ∃ jobs, reserve pb opts (.ok resp) = .ok (orNone jobs) ∧
    List.Forall₂ (fun j job => jobFromPb pb j opts.workerId = .ok job)
      (resp.jobs.filter fun j => decide j.WellFormed) jobs

theorem reserve_of_printable {opts : ReserveOptions} {resp : Pb.ReserveResponse}
    (printable : ∀ j ∈ resp.jobs, ¬ j.Unprintable) : ReservesWellFormed pb opts resp := by
  have exactly (j : Pb.Job) : decide j.WellFormed = true ↔
      Decodes (fun j => jobFromPb pb j opts.workerId) j := by
    rw [decide_eq_true_iff]
    exact (exists_jobFromPb_iff j opts.workerId).symm
  have safe : ∀ j ∈ resp.jobs,
      ¬ Escapes (fun j => jobFromPb pb j opts.workerId) PyError.isJobConversionError j :=
    fun j member leak => printable j member ((leaks_jobFromPb_iff j opts.workerId).mp leak)
  obtain ⟨jobs, loop, decoded⟩ := skipLoop_of_forall_not_escapes exactly safe []
  refine ⟨jobs, ?_, decoded⟩
  rw [reserve, loop]
  rfl

/-- One job with a time that cannot be formatted fails the whole call. -/
theorem reserve_of_unprintable (opts : ReserveOptions) {resp : Pb.ReserveResponse} {j : Pb.Job}
    (member : j ∈ resp.jobs) (unprintable : j.Unprintable) :
    ∃ err, reserve pb opts (.ok resp) = .error err := by
  have leak : Escapes (fun j => jobFromPb pb j opts.workerId) PyError.isJobConversionError j :=
    (leaks_jobFromPb_iff j opts.workerId).mpr unprintable
  obtain ⟨err, failed, _⟩ := skipLoop_of_escapes member leak []
  refine ⟨err, ?_⟩
  rw [reserve, failed]
  rfl

private theorem not_reservesWellFormed {opts : ReserveOptions} {resp : Pb.ReserveResponse}
    {j : Pb.Job}
    (member : j ∈ resp.jobs) (unprintable : j.Unprintable) : ¬ ReservesWellFormed pb opts resp := by
  rintro ⟨jobs, returned, _⟩
  obtain ⟨err, failed⟩ := reserve_of_unprintable pb opts member unprintable
  rw [failed] at returned
  contradiction

/-- `reserve` returns exactly the well-formed jobs unless it meets a time too far out of range to
be formatted, and then it loses the batch. -/
theorem reserve_wellFormed_iff (opts : ReserveOptions) (resp : Pb.ReserveResponse) :
    ReservesWellFormed pb opts resp ↔ ∀ j ∈ resp.jobs, ¬ j.Unprintable :=
  ⟨fun wellFormed _ member unprintable =>
    not_reservesWellFormed pb member unprintable wellFormed, reserve_of_printable pb⟩

/-- A job that is malformed only by an `enqueued_at` one second past the year 9999. -/
def farFutureJob : Pb.Job where
  id := "job"
  jobType := "email"
  payload := none
  priority := 1
  traceContext := none
  enqueuedAt := some ⟨253402300800, 0⟩
  attempt := 1
  maxAttempts := 3
  leaseExpiresAt := some ⟨1700000000, 0⟩
  custom := .empty
  scheduledAt := none
  queue := "emails"

/-- The malformed job is not skipped: its `ValueError` leaves `reserve`, and with it goes the
well-formed job of the same batch. -/
theorem reserve_farFuture_raises :
    ¬ ReservesWellFormed .checked emailOptions
      ⟨[{ farFutureJob with enqueuedAt := some ⟨1700000000, 0⟩ }, farFutureJob]⟩ :=
  not_reservesWellFormed .checked (j := farFutureJob) (by simp) (by decide)

/-- The call raises nothing and returns, in response order, exactly the well-formed records. -/
def DrainsWellFormed (resp : Pb.DrainDeadLettersResponse) : Prop :=
  ∃ records, drainDeadLetters pb (.ok resp) = .ok records ∧
    List.Forall₂ (fun r record => deadLetterRecordFromPb pb r = .ok record)
      (resp.records.filter fun r => decide r.WellFormed) records

private theorem drain_of_printable {resp : Pb.DrainDeadLettersResponse}
    (printable : ∀ r ∈ resp.records, ¬ r.Unprintable) : DrainsWellFormed pb resp := by
  have exactly (r : Pb.DeadLetterRecord) : decide r.WellFormed = true ↔
      Decodes (deadLetterRecordFromPb pb) r := by
    rw [decide_eq_true_iff]
    exact (exists_deadLetterRecordFromPb_iff r).symm
  have safe : ∀ r ∈ resp.records,
      ¬ Escapes (deadLetterRecordFromPb pb) PyError.isJobConversionError r :=
    fun r member leak => printable r member ((leaks_deadLetterRecordFromPb_iff r).mp leak)
  exact skipLoop_of_forall_not_escapes exactly safe []

private theorem not_drainsWellFormed {resp : Pb.DrainDeadLettersResponse} {r : Pb.DeadLetterRecord}
    (member : r ∈ resp.records) (unprintable : r.Unprintable) : ¬ DrainsWellFormed pb resp := by
  rintro ⟨records, returned, _⟩
  have leak : Escapes (deadLetterRecordFromPb pb) PyError.isJobConversionError r :=
    (leaks_deadLetterRecordFromPb_iff r).mpr unprintable
  obtain ⟨err, failed, _⟩ := skipLoop_of_escapes member leak []
  rw [drainDeadLetters, failed] at returned
  contradiction

/-- `drain_dead_letters` returns exactly the well-formed records unless it meets a time too far out
of range to be formatted, and then it loses the records it has just removed from the server. -/
theorem drain_wellFormed_iff (resp : Pb.DrainDeadLettersResponse) :
    DrainsWellFormed pb resp ↔ ∀ r ∈ resp.records, ¬ r.Unprintable :=
  ⟨fun wellFormed _ member unprintable =>
    not_drainsWellFormed pb member unprintable wellFormed, drain_of_printable pb⟩

/-- A record of a good job, dead-lettered one second past the year 9999. -/
def farFutureRecord : Pb.DeadLetterRecord where
  job := some { farFutureJob with enqueuedAt := some ⟨1700000000, 0⟩ }
  cause := 1
  failedAt := some ⟨253402300800, 0⟩
  finalAttempt := 3
  lastReason := none

/-- The record's `failed_at` cannot be formatted: its `ValueError` discards the drained batch. -/
theorem drain_farFuture_raises :
    ¬ DrainsWellFormed .checked
      ⟨[{ farFutureRecord with failedAt := some ⟨1700000000, 0⟩ }, farFutureRecord]⟩ :=
  not_drainsWellFormed .checked (r := farFutureRecord) (by simp) (by decide)

end SeppPy
