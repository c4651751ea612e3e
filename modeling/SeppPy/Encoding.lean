import SeppPy.Decoding

/-! # What the encoder sends

`enqueue_request_to_pb` is inverted once: which conversions succeeded, and the message they make.
Each conversion is then met by the decoder's conversion of the same field. A value of a `custom` map
and a valid trace context survive both ways; a schedule is assumed to survive protobuf's own
`FromDatetime`, which is not part of the repository.
-/

namespace SeppPy

/-- `FromDatetime` is exact: where it succeeds, the timestamp is valid and names the instant. -/
structure Protobuf.Exact (pb : Protobuf) : Prop where
  fromDatetime : ∀ dt ts, pb.fromDatetime dt = .ok ts →
    ts.Valid ∧ ts = .ofNanoseconds (dt.instant * 1000)

/-- A runtime that checks the range of a `datetime`, too. -/
def Protobuf.strict : Protobuf :=
  { Protobuf.checked with
    fromDatetime := fun dt =>
      let ts := Pb.Timestamp.ofNanoseconds (dt.instant * 1000)
      if ts.Valid then .ok ts else .error (.overflowError "date value out of range") }

theorem Protobuf.strict_exact : Protobuf.strict.Exact where
  fromDatetime dt ts converted := by
    simp only [strict] at converted
    split at converted
    · next valid =>
      cases converted
      exact ⟨valid, rfl⟩
    · contradiction

/-- The same instant, as a UTC datetime. -/
def Datetime.asUtc (dt : Datetime) : Datetime := ⟨dt.instant, some 0⟩

/-! ## The single conversions -/

theorem setOptional_ok_iff {α β : Type} {convert : α → Except PyError β} {value : Option α}
    {converted : Option β} :
    setOptional convert value = .ok converted ↔
      (value = none ∧ converted = none) ∨
        ∃ a b, value = some a ∧ convert a = .ok b ∧ converted = some b := by
  cases value with
  | none => simp [setOptional, eq_comm]
  | some a =>
    simp only [setOptional, Except.bind_eq_ok_iff]
    constructor
    · rintro ⟨b, done, same⟩
      exact .inr ⟨a, b, rfl, done, (Except.ok.inj same).symm⟩
    · rintro (⟨absent, _⟩ | ⟨_, b, same, done, rfl⟩)
      · contradiction
      · cases same
        exact ⟨b, done, rfl⟩

/-- A present value that converts is sent. -/
theorem setOptional_some {α β : Type} {convert : α → Except PyError β} {a : α} {b : β}
    (done : convert a = .ok b) : setOptional convert (some a) = .ok (some b) :=
  setOptional_ok_iff.mpr (.inr ⟨a, b, rfl, done, rfl⟩)

theorem requireValue_ok_iff {key : String} {pv : Pb.PrimitiveValue} {value : Primitive} :
    requireValue key pv = .ok value ↔ primitiveFromPb pv = some value := by
  unfold requireValue
  cases primitiveFromPb pv with
  | none => exact iff_of_false (nomatch ·) (nomatch ·)
  | some other => rw [Except.ok.injEq, Option.some.injEq]

/-- What is sent for a value is read back as the same value, of the same type. -/
theorem primitiveFromPb_of_primitiveToPb {value : Primitive} {pv : Pb.PrimitiveValue}
    (sent : primitiveToPb value = .ok pv) : primitiveFromPb pv = some value := by
  cases value with
  | int n =>
    simp only [primitiveToPb] at sent
    split at sent
    · cases sent
      rfl
    · contradiction
  | str _ | float _ | bool _ =>
    cases sent
    rfl

theorem TraceContext.init_self (tc : TraceContext) :
    TraceContext.init tc.traceparent tc.tracestate = .ok tc := by
  unfold TraceContext.init
  split
  · rfl
  · next msg failed =>
    rw [tc.valid] at failed
    contradiction

/-- A trace context that was validated once is not dropped. -/
theorem traceContextFromPb_traceContextToPb (tc : TraceContext) :
    traceContextFromPb (traceContextToPb tc) = some tc := by
  simp only [traceContextFromPb, traceContextToPb, TraceContext.init_self]

theorem toUtc_ofNanoseconds (instant : ℤ) :
    (Pb.Timestamp.ofNanoseconds (instant * 1000)).toUtc = ⟨instant, some 0⟩ := by
  simp only [Pb.Timestamp.toUtc, Pb.Timestamp.ofNanoseconds, Datetime.mk.injEq, and_true]
  omega

/-! ## The message -/

variable {pb : Protobuf}

/-- What `enqueue_request_to_pb` returns, when it succeeds. -/
theorem enqueueRequestToPb_ok_iff {req : EnqueueRequest} {m : Pb.EnqueueRequest} :
    enqueueRequestToPb pb req = .ok m ↔
      ∃ maxAttempts custom scheduledAt, setOptional uint32 req.maxAttempts = .ok maxAttempts ∧
        Dict.fill (fun _ value => primitiveToPb value) req.custom.items .empty = .ok custom ∧
        setOptional pb.fromDatetime
          (req.scheduledAt.filter fun dt => decide (0 ≤ datetimeToMillis dt)) = .ok scheduledAt ∧
        m = {
          queue := req.queue
          jobType := req.jobType
          payload := req.payload.map payloadToPb
          idempotencyKey := req.idempotencyKey
          priority := req.priority.map Priority.value
          maxAttempts
          traceContext := req.traceContext.map traceContextToPb
          custom
          scheduledAt } := by
  simp only [enqueueRequestToPb, Except.bind_eq_ok_iff]
  constructor
  · rintro ⟨maxAttempts, limited, custom, filled, scheduledAt, scheduled, same⟩
    exact ⟨maxAttempts, custom, scheduledAt, limited, filled, scheduled, (Except.ok.inj same).symm⟩
  · rintro ⟨maxAttempts, custom, scheduledAt, limited, filled, scheduled, rfl⟩
    exact ⟨maxAttempts, limited, custom, filled, scheduledAt, scheduled, rfl⟩

/-- Every item of a `custom` map is sent under its key. -/
theorem get?_of_customSent {custom : Dict String Primitive} {sent : Dict String Pb.PrimitiveValue}
    (filled : Dict.fill (fun _ value => primitiveToPb value) custom.items .empty = .ok sent)
    {key : String} {value : Primitive} (read : custom.get? key = some value) :
    ∃ pv, primitiveToPb value = .ok pv ∧ sent.get? key = some pv := by
  obtain ⟨pv, converted⟩ := (Dict.fill_ok_iff _ _).mp ⟨sent, filled⟩ (key, value)
    ((Dict.get?_eq_some_iff custom key value).mp read)
  exact ⟨pv, converted, (Dict.get?_fill_iff filled key pv).mpr ⟨value, read, converted⟩⟩

end SeppPy
