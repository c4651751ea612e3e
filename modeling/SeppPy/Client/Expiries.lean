import SeppPy.Client.Extend

/-! # The lease expiries a client adopts

A job and an extension carry the expiry of a lease in a submessage. Reading an absent submessage
gives its default instance, whose time is the epoch, and no decoder asks whether the field is there:
they accept 1970 as the expiry of a lease that the server said nothing about. A field that is there
is adopted as it was sent, truncated to microseconds in the job and to milliseconds in the lease.
-/

namespace SeppPy

variable (pb : Protobuf) {F : Type} [PyFloat F] (policy : RetryPolicy F)

/-- The expiry is the one in the field, truncated to microseconds. -/
def SentAs (field : Option Pb.Timestamp) (expiry : Datetime) : Prop :=
  ∃ ts ∈ field, expiry.instant = ts.nanoseconds / 1000

/-- The lease knows the time in the field, truncated to milliseconds. -/
def KnownAs (field : Option Pb.Timestamp) (lease : Lease) : Prop :=
  ∃ ts ∈ field, lease.knownExpiryMs = ts.nanoseconds / 1000000

/-- Every job that `reserve` returns was read, in order, from a message with the expiry it has. -/
def ReserveAdopts (opts : ReserveOptions) (resp : Pb.ReserveResponse) : Prop :=
  ∀ jobs, reserve pb opts (.ok resp) = .ok (some jobs) →
    ∃ messages, messages.Sublist resp.jobs ∧
      List.Forall₂ (fun j job => jobFromPb pb j opts.workerId = .ok job ∧
        SentAs j.leaseExpiresAt job.ctx.leaseExpiresAt ∧ KnownAs j.leaseExpiresAt job.ctx.lease)
        messages jobs

/-- What the extension returns and stores was in the response; without the field it raises a
`MalformedResponseError` and stores nothing. -/
structure ExtendAdopts (held : Held) (op : Extension F) (resp : Pb.ExtendResponse) : Prop where
  returned : ∀ expiry, (held.call pb policy op).1 = .ok expiry → SentAs resp.leaseExpiresAt expiry
  stored : ∀ expiry, (held.call pb policy op).1 = .ok expiry → op.route ≠ .client →
    KnownAs resp.leaseExpiresAt (held.call pb policy op).2.lease
  malformed : resp.leaseExpiresAt = none →
    (∃ message, (held.call pb policy op).1 = .error (.sepp (.malformedResponseError message))) ∧
      (held.call pb policy op).2.lease.knownExpiryMs = held.ctx.lease.knownExpiryMs

private theorem instant_toUtc (ts : Pb.Timestamp) : ts.toUtc.instant = ts.nanoseconds / 1000 := by
  simp only [Datetime.instant, Pb.Timestamp.toUtc, Pb.Timestamp.nanoseconds, Option.getD_some]
  omega

private theorem not_sentAs_none (expiry : Datetime) : ¬ SentAs none expiry := by
  rintro ⟨_, absent, _⟩
  contradiction

/-! ## Reserving -/

variable {pb} {policy}

/-- A decoded job has the expiry of its message exactly when the message has one. -/
theorem adopted_of_jobFromPb_iff {j : Pb.Job} {workerId : Option String} {job : Job}
    (decoded : jobFromPb pb j workerId = .ok job) :
    (SentAs j.leaseExpiresAt job.ctx.leaseExpiresAt ∧ KnownAs j.leaseExpiresAt job.ctx.lease) ↔
      j.leaseExpiresAt.isSome = true := by
  obtain ⟨_, _, _, _, _, _, rfl⟩ := jobFromPb_ok decoded
  cases sent : j.leaseExpiresAt with
  | none =>
    refine iff_of_false ?_ (by decide)
    intro adopted
    exact not_sentAs_none _ adopted.1
  | some ts =>
    refine iff_of_true ⟨?_, ?_⟩ rfl
    · exact ⟨ts, rfl, instant_toUtc ts⟩
    · exact ⟨ts, rfl, ts.datetimeToMillis_toUtc⟩

/-- What a relation says of its left members holds of all of them. -/
theorem forall_of_forall₂ {α β : Type} {R : α → β → Prop} {p : α → Prop} {l : List α} {u : List β}
    (related : List.Forall₂ R l u) (left : ∀ a b, R a b → p a) : ∀ a ∈ l, p a := by
  induction related with
  | nil =>
    intro a member
    contradiction
  | cons first _ ih => exact List.forall_mem_cons.mpr ⟨left _ _ first, ih⟩

/-- Messages of the response that decode, as many as its well-formed ones, are these. -/
theorem messages_eq_filter {resp : Pb.ReserveResponse} {workerId : Option String}
    {messages : List Pb.Job} {jobs : List Job} (sub : messages.Sublist resp.jobs)
    (decoded : List.Forall₂ (fun j job => jobFromPb pb j workerId = .ok job) messages jobs)
    (count : (resp.jobs.filter fun j => decide j.WellFormed).length = jobs.length) :
    messages = resp.jobs.filter fun j => decide j.WellFormed := by
  have wellFormed : ∀ j ∈ messages, decide j.WellFormed = true := by
    refine forall_of_forall₂ decoded fun j job read => ?_
    exact decide_eq_true ((exists_jobFromPb_iff j workerId).mp ⟨job, read⟩)
  have kept : messages.filter (fun j => decide j.WellFormed) = messages :=
    List.filter_eq_self.mpr wellFormed
  rw [← kept]
  apply (sub.filter _).eq_of_length
  rw [kept, decoded.length_eq, count]

/-- A response is adopted as it was sent if every job that is accepted has its expiry. -/
theorem reserveAdopts_of_present {opts : ReserveOptions} {resp : Pb.ReserveResponse}
    (printable : ∀ j ∈ resp.jobs, ¬ j.Unprintable)
    (present : ∀ j ∈ resp.jobs, j.WellFormed → j.leaseExpiresAt.isSome = true) :
    ReserveAdopts pb opts resp := by
  intro jobs returned
  obtain ⟨jobs', returned', decoded⟩ : ReservesWellFormed pb opts resp :=
    reserve_of_printable pb printable
  obtain ⟨rfl, _⟩ := orNone_eq_some_iff.mp (Except.ok.inj (returned'.symm.trans returned))
  have sent : ∀ j ∈ resp.jobs.filter (fun j => decide j.WellFormed),
      j.leaseExpiresAt.isSome = true := by
    intro j kept
    obtain ⟨member, wellFormed⟩ := List.mem_filter.mp kept
    exact present j member (of_decide_eq_true wellFormed)
  refine ⟨_, List.filter_sublist, ((List.forall₂_and_left _ _).mpr ⟨sent, decoded⟩).imp ?_⟩
  rintro j job ⟨there, read⟩
  exact ⟨read, (adopted_of_jobFromPb_iff read).mpr there⟩

/-- A job without an expiry is accepted like any other, so a response with one is not. -/
theorem present_of_reserveAdopts {opts : ReserveOptions} {resp : Pb.ReserveResponse}
    (printable : ∀ j ∈ resp.jobs, ¬ j.Unprintable) (adopts : ReserveAdopts pb opts resp)
    {j : Pb.Job} (member : j ∈ resp.jobs) (wellFormed : j.WellFormed) :
    j.leaseExpiresAt.isSome = true := by
  obtain ⟨jobs, returned, decoded⟩ : ReservesWellFormed pb opts resp :=
    reserve_of_printable pb printable
  have kept : j ∈ resp.jobs.filter fun j => decide j.WellFormed :=
    List.mem_filter.mpr ⟨member, decide_eq_true wellFormed⟩
  have some : orNone jobs = some jobs := by
    refine orNone_eq_some_iff.mpr ⟨rfl, ?_⟩
    rintro rfl
    rw [List.forall₂_nil_right_iff.mp decoded] at kept
    contradiction
  obtain ⟨messages, sub, adopted⟩ := adopts jobs (returned.trans (congrArg _ some))
  rw [← messages_eq_filter sub (adopted.imp fun _ _ both => both.1) decoded.length_eq] at kept
  have present : ∀ j ∈ messages, j.leaseExpiresAt.isSome = true := by
    refine forall_of_forall₂ adopted fun j job both => ?_
    exact (adopted_of_jobFromPb_iff both.1).mp both.2
  exact present j kept

/-- `reserve` adopts only expiries that were sent unless it accepts a job without one. -/
theorem reserveAdopts_iff (opts : ReserveOptions) (resp : Pb.ReserveResponse) :
    ReserveAdopts pb opts resp ↔ (∃ j ∈ resp.jobs, j.Unprintable) ∨
      ∀ j ∈ resp.jobs, j.WellFormed → j.leaseExpiresAt.isSome = true := by
  by_cases unprintable : ∃ j ∈ resp.jobs, j.Unprintable
  · refine iff_of_true ?_ (.inl unprintable)
    intro jobs returned
    obtain ⟨j, member, unprintable⟩ := unprintable
    obtain ⟨err, failed⟩ := reserve_of_unprintable pb opts member unprintable
    rw [failed] at returned
    contradiction
  · rw [or_iff_right unprintable]
    have printable : ∀ j ∈ resp.jobs, ¬ j.Unprintable := by
      intro j member unformattable
      exact unprintable ⟨j, member, unformattable⟩
    constructor
    · intro adopts j member wellFormed
      exact present_of_reserveAdopts printable adopts member wellFormed
    · exact reserveAdopts_of_present printable

/-! ## Extending -/

section Extending

variable {held : Held} {op : Extension F} {resp : Pb.ExtendResponse}

/-- A success is the expiry that the response reads as. -/
theorem call_ok_iff_of_answers
    (answered : Answers policy RETRYABLE_CODES (op.rpc.stub (held.request pb op)) resp)
    {expiry : Datetime} :
    (held.call pb policy op).1 = .ok expiry ↔
      (resp.leaseExpiresAt.getD {}).Representable ∧ expiry = (resp.leaseExpiresAt.getD {}).toUtc := by
  rw [Held.call_ok_iff]
  constructor
  · rintro ⟨resp', answered', readable⟩
    rwa [answered.unique answered']
  · intro readable
    exact ⟨resp, answered, readable⟩

/-- An extension adopts the expiry that was sent exactly when the response has one. -/
theorem extendAdopts_iff
    (answered : Answers policy RETRYABLE_CODES (op.rpc.stub (held.request pb op)) resp) :
    ExtendAdopts pb policy held op resp ↔ resp.leaseExpiresAt.isSome = true := by
  cases sent : resp.leaseExpiresAt with
  | none =>
    refine iff_of_false ?_ (by decide)
    intro adopts
    obtain ⟨⟨message, failed⟩, _⟩ := adopts.malformed sent
    have epoch : (held.call pb policy op).1 = .ok ⟨0, some 0⟩ := by
      rw [call_ok_iff_of_answers answered, sent]
      exact ⟨by decide, rfl⟩
    rw [epoch] at failed
    contradiction
  | some ts =>
    refine iff_of_true ⟨?_, ?_, ?_⟩ rfl
    · intro expiry extended
      rw [call_ok_iff_of_answers answered, sent] at extended
      exact ⟨ts, sent, extended.2 ▸ instant_toUtc ts⟩
    · intro expiry extended lease
      refine ⟨ts, sent, ?_⟩
      rw [Held.ctx_of_lease_call lease, extended]
      rw [call_ok_iff_of_answers answered, sent] at extended
      rw [extended.2]
      exact ts.datetimeToMillis_toUtc
    · intro absent
      rw [sent] at absent
      contradiction

end Extending

/-- Every expiry that is adopted was sent exactly when no job and no extension is accepted without
the field. -/
theorem expiries_sent_iff (pb : Protobuf) (policy : RetryPolicy F) :
    (∀ opts resp, ReserveAdopts pb opts resp ↔
        (∃ j ∈ resp.jobs, j.Unprintable) ∨
          ∀ j ∈ resp.jobs, j.WellFormed → j.leaseExpiresAt.isSome = true) ∧
      ∀ (held : Held) (op : Extension F) resp,
        Answers policy RETRYABLE_CODES (op.rpc.stub (held.request pb op)) resp →
          (ExtendAdopts pb policy held op resp ↔ resp.leaseExpiresAt.isSome = true) :=
  ⟨reserveAdopts_iff, fun _ _ _ => extendAdopts_iff⟩

/-- A job leased for thirty seconds, and an extension of it to the ninetieth. -/
theorem expiries_sent_iff_leased :
    let held : Held := .reserved leasedMessage leasedJob.ctx
    let op : Extension Binary64 := ⟨.heartbeat, 60000000, granting 90⟩
    ReserveAdopts .checked emailOptions ⟨[leasedMessage]⟩ ∧
      ExtendAdopts .checked .init held op ⟨some ⟨90, 0⟩⟩ := by
  intro held op
  obtain ⟨reserving, extending⟩ := expiries_sent_iff .checked (.init : RetryPolicy Binary64)
  have answered : Answers (.init : RetryPolicy Binary64) RETRYABLE_CODES
      (op.rpc.stub (held.request .checked op)) ⟨some ⟨90, 0⟩⟩ := answers_const .init _ _
  refine ⟨(reserving _ _).mpr (.inr ?_), (extending held op _ answered).mpr rfl⟩
  intro j member _
  obtain rfl := List.mem_singleton.mp member
  rfl

/-- A job and an extension without an expiry are taken to expire in 1970. -/
theorem absent_expiry_adopted :
    let unleased : Pb.Job := { leasedMessage with leaseExpiresAt := none }
    let expired : JobCtx := { leasedJob.ctx with
      leaseExpiresAt := ⟨0, some 0⟩, lease := ⟨"job", 1, none, 0⟩ }
    let held : Held := .reserved leasedMessage leasedJob.ctx
    let op : Extension Binary64 :=
      ⟨.heartbeat, 60000000, ⟨fun _ _ => .ok ⟨none⟩, fun _ => .finite 0⟩⟩
    (reserve .checked emailOptions (.ok ⟨[unleased]⟩) = .ok (some [⟨none, expired⟩]) ∧
        ¬ ReserveAdopts .checked emailOptions ⟨[unleased]⟩) ∧
      (held.call .checked .init op).1 = .ok ⟨0, some 0⟩ ∧
        (held.call .checked .init op).2.lease.knownExpiryMs = 0 ∧
        ¬ ExtendAdopts .checked .init held op ⟨none⟩ := by
  intro unleased expired held op
  have answered : Answers (.init : RetryPolicy Binary64) RETRYABLE_CODES
      (op.rpc.stub (held.request .checked op)) ⟨none⟩ := answers_const .init _ _
  have epoch : (held.call .checked .init op).1 = .ok ⟨0, some 0⟩ :=
    (call_ok_iff_of_answers answered).mpr ⟨by decide, rfl⟩
  have lease : op.route ≠ .client := by decide
  refine ⟨⟨rfl, ?_⟩, epoch, ?_, ?_⟩
  · intro adopts
    obtain ⟨messages, sub, adopted⟩ := adopts [⟨none, expired⟩] rfl
    cases adopted with
    | cons first _ =>
      obtain rfl := List.mem_singleton.mp (sub.subset List.mem_cons_self)
      exact not_sentAs_none _ first.2.1
  · rw [Held.ctx_of_lease_call lease, epoch]
    rfl
  · intro adopts
    have present := (extendAdopts_iff answered).mp adopts
    contradiction

end SeppPy
