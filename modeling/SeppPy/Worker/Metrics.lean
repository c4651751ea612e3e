import SeppPy.Worker.Reservations

/-! # What a worker measures

`WorkerMetrics` counts the reserve calls that come back and keeps a gauge of the jobs in flight.
`measure` says what each step of `run()` records. Summed up along a run, the gauge shows the job
tasks whose `_done` callback has not run, and a reserve call is counted once at most.
-/

namespace SeppPy

open Machine

/-- What is added to an instrument. -/
inductive Measurement
  | processed
  | nacked (outcome : String)
  | inFlight (delta : ℤ)
  | reservesCompleted (jobs : String)
  | reservesFailed
deriving DecidableEq, Repr

namespace WorkerMetrics

def recordProcessed : Measurement := .processed

def recordNacked (deadLettered : Bool) : Measurement :=
  .nacked (if deadLettered then "dead_letter" else "retry")

def recordInFlightDelta (delta : ℤ) : Measurement := .inFlight delta

def recordReserveOk (empty : Bool) : Measurement :=
  .reservesCompleted (if empty then "empty" else "some")

def recordReserveFailed : Measurement := .reservesFailed

end WorkerMetrics

/-- What a measurement adds to the gauge of the jobs in flight. -/
def Measurement.delta : Measurement → ℤ
  | .inFlight delta => delta
  | _ => 0

/-- The measurement counts a reserve call. -/
def Measurement.countsReserve : Measurement → Bool
  | .reservesCompleted _ => true
  | .reservesFailed => true
  | _ => false

namespace Loop

/-- `_spawn`, as far as it is measured. -/
def measureSpawn : List Measurement := [WorkerMetrics.recordInFlightDelta 1]

/-- The loop goes on with what the reserve call returned or raised. A batch is counted before its
first job is taken. -/
def measureReserved : Except PyError (Option (List Job)) → List Measurement
  | .ok none => [WorkerMetrics.recordReserveOk true]
  | .ok (some []) => [WorkerMetrics.recordReserveOk false]
  | .ok (some (_ :: _)) => WorkerMetrics.recordReserveOk false :: measureSpawn
  | .error (.sepp _) => [WorkerMetrics.recordReserveFailed]
  | .error _ => []

/-- `run()` resumes in `_or_shutdown`, which returns what the awaitable did or not at all. -/
def measureRace (w : Loop) (r : Race) (stage : Stage) : List Measurement :=
  match r.awaitable, r.task, r.shutdownWait with
  | .reserve _ _, .done result, .done =>
    if w.mustCancel = false ∧ (stage = .waiting ∨ stage = .reapShutdownWait) then
      measureReserved result
    else []
  | _, _, _ => []

/-- What a step records. -/
def measure (w : Loop) : Event → List Measurement
  | .resume _ =>
    match w.pc with
    | .race r stage => w.measureRace r stage
    | .batch (_ :: _) => if w.mustCancel ∨ w.free = 0 then [] else measureSpawn
    | _ => []
  | .taskDone _ => [WorkerMetrics.recordInFlightDelta (-1)]
  | _ => []

variable {worker : Worker} {eagerGather : Bool} {initial : ℤ} {monotonic : ℤ} {w w' : Loop}

/-- What the measurements add to the gauge. -/
def gauge (measured : List Measurement) : ℤ := (measured.map Measurement.delta).sum

/-- The reserve calls that the measurements count. -/
def reservesCounted (measured : List Measurement) : ℕ := measured.countP Measurement.countsReserve

/-- The reserve calls that `_or_shutdown` is done with. -/
def pastReserves (w : Loop) : ℕ := (w.past.map Race.awaitable).countP isReserve

@[simp]
theorem gauge_append (first second : List Measurement) :
    gauge (first ++ second) = gauge first + gauge second := by
  simp [gauge]

@[simp]
theorem reservesCounted_append (first second : List Measurement) :
    reservesCounted (first ++ second) = reservesCounted first + reservesCounted second :=
  List.countP_append

/-! ## One step -/

/-- No reserve call is counted, or the one that `_or_shutdown` has just left is counted once. -/
def CountsLast (w w' : Loop) (measured : List Measurement) : Prop :=
  (reservesCounted measured = 0 ∧ w.past <+: w'.past) ∨
    (reservesCounted measured = 1 ∧ ∃ r, isReserve r.awaitable = true ∧ w'.past = w.past ++ [r])

/-- A step measures the change of `_in_flight`, and counts a reserve call that it is done with. -/
structure Measured (w w' : Loop) (measured : List Measurement) : Prop where
  gauge : w'.inFlight = w.inFlight + gauge measured
  reserves : CountsLast w w' measured

/-- A step that measures nothing. -/
theorem measured_nil (inFlight : w'.inFlight = w.inFlight) (past : w.past <+: w'.past) :
    Measured w w' [] := ⟨by simp [gauge, inFlight], .inl ⟨rfl, past⟩⟩

/-- So the counts never get ahead of the calls. -/
theorem CountsLast.le {measured : List Measurement} (counts : CountsLast w w' measured) :
    w.pastReserves + reservesCounted measured ≤ w'.pastReserves := by
  rcases counts with ⟨none, rest, same⟩ | ⟨once, r, reserve, past⟩
  · simp [pastReserves, none, ← same]
  · simp [pastReserves, once, past, reserve]

private theorem inFlight_raiseInBody (err : PyError) (v : Loop) :
    (v.raiseInBody eagerGather err).inFlight = v.inFlight := by
  unfold raiseInBody
  split <;> rfl

private theorem past_raiseInBody (err : PyError) (v : Loop) :
    (v.raiseInBody eagerGather err).past = v.past := by
  unfold raiseInBody
  split <;> rfl

/-- An exception in the body of the loop measures nothing. -/
theorem measured_raiseInBody (err : PyError) {v : Loop} (inFlight : v.inFlight = w.inFlight)
    (past : w.past <+: v.past) : Measured w (v.raiseInBody eagerGather err) [] :=
  measured_nil ((inFlight_raiseInBody err v).trans inFlight) ((past_raiseInBody err v).symm ▸ past)

/-- What the loop does with the end of a reserve call is what it measures. -/
theorem onReserved_measured (v : Loop) (opts : ReserveOptions) (elapsed : Timedelta)
    (result : Except PyError (Option (List Job))) :
    (v.onReserved worker eagerGather opts elapsed result).inFlight =
        v.inFlight + gauge (measureReserved result) ∧
      (v.onReserved worker eagerGather opts elapsed result).past = v.past ∧
      reservesCounted (measureReserved result) ≤ 1 := by
  cases result with
  | ok jobs =>
    cases jobs with
    | none => exact ⟨(add_zero _).symm, rfl, le_rfl⟩
    | some jobs =>
      cases jobs with
      | nil =>
        refine ⟨?_, past_raiseInBody _ v, le_rfl⟩
        exact (inFlight_raiseInBody _ v).trans (add_zero _).symm
      | cons job rest => exact ⟨rfl, rfl, le_rfl⟩
  | error err =>
    cases err with
    | sepp err => exact ⟨(add_zero _).symm, rfl, le_rfl⟩
    | _ =>
      refine ⟨?_, past_raiseInBody _ v, Nat.zero_le 1⟩
      exact (inFlight_raiseInBody _ v).trans (add_zero _).symm

/-- Only the result of a race is measured. -/
theorem measureRace_eq_nil {r : Race} {stage : Stage}
    (without : ∀ result, r.task = .done result → r.shutdownWait = .done → w.mustCancel = false →
      stage ≠ .waiting ∧ stage ≠ .reapShutdownWait) : w.measureRace r stage = [] := by
  unfold measureRace
  split
  · next ended signalled =>
    rw [if_neg]
    rintro ⟨calm, here⟩
    obtain ⟨notWaiting, notReaping⟩ := without _ ended signalled calm
    exact here.elim notWaiting notReaping
  · rfl

private theorem measured_onResult_of_other {awaitable : Awaitable} {v : Loop}
    {result : Except PyError (Option (List Job))}
    (other : isReserve awaitable = false) (past : w.past <+: v.past)
    (inFlight : v.inFlight = w.inFlight) :
    Measured w (v.onResult worker eagerGather monotonic awaitable result) [] := by
  unfold onResult
  split
  · contradiction
  · exact measured_raiseInBody _ inFlight past
  · split
    · exact measured_nil inFlight past
    · exact measured_raiseInBody _ inFlight past
  · exact measured_nil inFlight past

private theorem measured_result {r : Race} {stage : Stage}
    {result : Except PyError (Option (List Job))}
    (calm : w.mustCancel = false) (ended : r.task = .done result)
    (signalled : r.shutdownWait = .done)
    (here : stage = .waiting ∨ stage = .reapShutdownWait) :
    Measured w ((w.closeRace r).onResult worker eagerGather monotonic r.awaitable result)
      (w.measureRace r stage) := by
  have closed : w.past <+: w.past ++ [r] := List.prefix_append _ _
  cases awaitable : r.awaitable with
  | reserve opts started =>
    have measured : w.measureRace r stage = measureReserved result := by
      simp only [measureRace, awaitable, ended, signalled]
      exact if_pos ⟨calm, here⟩
    rw [measured]
    have goesOn : Measured w ((w.closeRace r).onReserved worker eagerGather opts
        (monotonic - started) result) (measureReserved result) := by
      obtain ⟨inFlight, past, once⟩ :=
        onReserved_measured (w.closeRace r) opts (monotonic - started) result
      refine ⟨inFlight, ?_⟩
      unfold CountsLast
      rw [past]
      rcases Nat.le_one_iff_eq_zero_or_eq_one.mp once with none | one
      · exact .inl ⟨none, closed⟩
      · exact .inr ⟨one, r, by rw [awaitable]; rfl, rfl⟩
    exact goesOn
  | acquire | sleep =>
    have unmeasured : w.measureRace r stage = [] := by simp only [measureRace, awaitable]
    rw [unmeasured]
    exact measured_onResult_of_other rfl closed rfl

private theorem measured_race {r : Race} {stage : Stage}
    (resumed : RaceResumes worker eagerGather monotonic w r stage w') :
    Measured w w' (w.measureRace r stage) := by
  have closed : w.past <+: w.past ++ [r] := List.prefix_append _ _
  cases resumed with
  | cancelled flagged =>
    rw [measureRace_eq_nil fun _ _ _ calm => absurd (flagged.symm.trans calm) (by decide)]
    exact measured_nil rfl List.prefix_rfl
  | shutdownWins calm running signalled =>
    obtain ⟨flag, pending⟩ := running
    rw [measureRace_eq_nil fun _ ended => by simp [pending] at ended]
    exact measured_nil rfl List.prefix_rfl
  | taskWins calm ended unsignalled =>
    obtain ⟨flag, pending⟩ := unsignalled
    rw [measureRace_eq_nil fun _ _ signalled => by simp [pending] at signalled]
    exact measured_nil rfl List.prefix_rfl
  | result calm ended signalled here => exact measured_result calm ended signalled here
  | shutdown calm ended =>
    have unmeasured : w.measureRace r .reapTask = [] :=
      measureRace_eq_nil fun _ _ _ _ => ⟨by decide, by decide⟩
    rw [unmeasured]
    cases r.awaitable with
    | acquire | reserve | sleep =>
      simp only [onShutdown]
      exact measured_nil rfl closed
  | raises ended signalled here =>
    have unmeasured : w.measureRace r stage = [] := by
      refine measureRace_eq_nil fun _ _ _ calm => ?_
      rcases here with rfl | ⟨flagged, _⟩
      · exact ⟨by decide, by decide⟩
      · exact absurd (flagged.symm.trans calm) (by decide)
    rw [unmeasured]
    exact measured_raiseInBody _ rfl closed

/-- Every step measures the change of `_in_flight`. -/
theorem measured_step {e : Event} (taken : w.step worker eagerGather e = some w') :
    Measured w w' (w.measure e) := by
  cases moves_of_step taken with
  | shutdown | register => exact measured_nil rfl List.prefix_rfl
  | cancel =>
    unfold cancel
    split <;> exact measured_nil rfl List.prefix_rfl
  | child moved =>
    cases moved with
    | acquires | cancelled | sleeps | reserves | signalled =>
      exact measured_nil rfl List.prefix_rfl
  | job => exact measured_nil rfl List.prefix_rfl
  | taskDone i found ended unreaped => exact ⟨rfl, .inl ⟨rfl, List.prefix_rfl⟩⟩
  | resume monotonic resumed =>
    cases resumed with
    | races at_pc resumed =>
      simp only [measure, at_pc]
      exact measured_race resumed
    | starts at_pc | neverStarts at_pc | reaped at_pc | drained at_pc | drainRaises at_pc =>
      simp only [measure, at_pc]
      exact measured_nil rfl List.prefix_rfl
    | @batchRaises rest at_pc flagged =>
      have unmeasured : w.measure (.resume monotonic) = [] := by
        simp only [measure, at_pc]
        split <;> simp_all
      rw [unmeasured]
      exact measured_raiseInBody _ rfl List.prefix_rfl
    | batchSpawns at_pc calm available =>
      simp only [measure, at_pc, calm, available, Bool.false_eq_true, or_self, ↓reduceIte]
      exact ⟨rfl, .inl ⟨rfl, List.prefix_rfl⟩⟩

/-! ## Whole runs -/

/-- What a run of the worker has recorded. -/
def recorded (worker : Worker) (eagerGather : Bool) (w : Loop) (es : List Event) :
    List Measurement :=
  collect (Loop.step worker eagerGather) measure w es

/-- What has been recorded so far, against the state. -/
structure Recorded (initial : ℤ) (w : Loop) (measured : List Measurement) : Prop where
  gauge : w.inFlight = initial + gauge measured
  reserves : reservesCounted measured ≤ w.pastReserves

theorem Recorded.step {measured : List Measurement} {e : Event}
    (before : Recorded initial w measured) (taken : w.step worker eagerGather e = some w') :
    Recorded initial w' (measured ++ w.measure e) := by
  have next := measured_step taken
  refine ⟨?_, ?_⟩
  · rw [gauge_append, next.gauge, before.gauge, add_assoc]
  · rw [reservesCounted_append]
    exact (Nat.add_le_add_right before.reserves _).trans next.reserves.le

private theorem recorded_of_run {registry : Registry} {es : List Event}
    (run : Run (Steps (Loop.step worker eagerGather)) (init worker registry initial) es w) :
    Recorded initial w (recorded worker eagerGather (init worker registry initial) es) := by
  have guarded : Run (Guarded (Steps (Loop.step worker eagerGather)) fun _ _ => True)
      (init worker registry initial) es w := run.guard fun _ _ _ => trivial
  have begins : Recorded initial (init worker registry initial) [] :=
    ⟨by simp [init, gauge], le_rfl⟩
  exact guarded.collect_invariant (Recorded initial)
    (fun before taken => before.step taken.1) begins

/-- Whatever a worker does, the gauge shows the job tasks that are in its `tasks` set, which are
never more than `max_in_flight`, and a reserve call is counted once at most, as `_or_shutdown` leaves
it. -/
theorem gauge_eq_unreaped (defaultWorkerId : String) (args : WorkerArgs) (worker : Worker)
    (made : Worker.init defaultWorkerId args = .ok worker) (eagerGather : Bool)
    (registry : Registry) (initial : ℤ) (es : List Event) (w : Loop)
    (run : Run (Steps (Loop.step worker eagerGather)) (init worker registry initial) es w) :
    let measured := recorded worker eagerGather (init worker registry initial) es
    gauge measured = unreaped w.slots ∧ gauge measured ≤ max 1 args.maxInFlight ∧
      reservesCounted measured + (w.current.map Race.awaitable).countP isReserve ≤
        w.reserveCalls ∧
      Run (Ensuring (Steps (Loop.step worker eagerGather)) fun a e b => CountsLast a b (a.measure e))
        (init worker registry initial) es w := by
  intro measured
  have record := recorded_of_run run
  have permits := Permits.of_run run
  have shown : gauge measured = unreaped w.slots := by
    have inFlight_eq := permits.inFlight_eq
    have gauge_eq : w.inFlight = initial + gauge measured := record.gauge
    omega
  refine ⟨shown, ?_, ?_, ?_⟩
  · have balance := permits.balance
    rw [Worker.maxInFlight_of_init made, permits.inFlight_eq] at balance
    have nonneg : (0 : ℤ) ≤ if w.held then 1 else 0 := by split <;> decide
    omega
  · rw [reserveCalls_eq]
    exact Nat.add_le_add_right record.reserves _
  · exact run.ensure (fun _ => True) (fun _ _ => trivial)
      (fun _ taken => (measured_step taken).reserves) trivial

/-- One of two reserved jobs is in flight. -/
theorem gauge_eq_unreaped_pair :
    ∃ w, Run (Steps (step .sole true)) (init .sole {} 0)
        (reserved [JobTask.emailJob, JobTask.emailJob]) w ∧
      let measured := recorded .sole true (init .sole {} 0)
        (reserved [JobTask.emailJob, JobTask.emailJob])
      measured = [.reservesCompleted "some", .inFlight 1] ∧ gauge measured = unreaped w.slots ∧
        gauge measured ≤ max 1 Worker.soleArgs.maxInFlight ∧
        reservesCounted measured + (w.current.map Race.awaitable).countP isReserve ≤
          w.reserveCalls ∧
        Run (Ensuring (Steps (step .sole true)) fun a e b => CountsLast a b (a.measure e))
          (init .sole {} 0) (reserved [JobTask.emailJob, JobTask.emailJob]) w := by
  obtain ⟨w, found⟩ : ∃ w, run? (step .sole true) (init .sole {} 0)
      (reserved [JobTask.emailJob, JobTask.emailJob]) = some w := ⟨_, rfl⟩
  have run := (run?_eq_some_iff _ _ _ _).mp found
  exact ⟨w, run, rfl, gauge_eq_unreaped "worker" Worker.soleArgs .sole rfl true {} 0 _ w run⟩

end Loop

end SeppPy
