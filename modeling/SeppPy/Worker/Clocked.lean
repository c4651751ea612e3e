import SeppPy.Client.Extend
import SeppPy.Worker.LeaseLoss

/-! # The heartbeat in time

`Clocked` runs a job task in auto-extend mode against a clock that never goes back: a sleep lasts at
least its interval, and whatever else happens takes any time. What the client's own clock shows when
the heartbeat reads it is part of the event, so that an assumption about that clock is an assumption
about the events. Beside the task, the state keeps the expiry of the lease as it was sent on the
wire, to the nanosecond; the task knows it in milliseconds.
-/

namespace SeppPy

open Machine

/-- A heartbeat after what happens beside it: it is left alone or cancelled, or it has just been
created or has ended. -/
def Heartbeat.Beside (before after : Heartbeat) : Prop :=
  after = before ∨ after = before.cancel ∨ after = .created false ∨ after = .done

namespace Heartbeat.Beside

variable {before after : Heartbeat}

/-- A heartbeat that sleeps has slept before, for the same interval. -/
theorem sleeping {interval : Timedelta} {flag : Bool} (beside : before.Beside after)
    (asleep : after = .sleeping interval flag) : ∃ flag', before = .sleeping interval flag' := by
  rcases beside with rfl | rfl | rfl | rfl
  · exact ⟨flag, asleep⟩
  · cases before with
    | sleeping interval' flag' =>
      cases asleep
      exact ⟨flag', rfl⟩
    | _ => cases asleep
  · contradiction
  · contradiction

/-- A heartbeat that extends has extended before. -/
theorem extending {flag : Bool} (beside : before.Beside after) (underWay : after = .extending flag) :
    ∃ flag', before = .extending flag' := by
  rcases beside with rfl | rfl | rfl | rfl
  · exact ⟨flag, underWay⟩
  · cases before with
    | extending flag' => exact ⟨flag', rfl⟩
    | _ => cases underWay
  · contradiction
  · contradiction

end Heartbeat.Beside

namespace JobTask

variable {autoExtend : Option AutoExtend} {t t' : JobTask}

/-- The heartbeat and what it knows are as they were. -/
def SameBeat (t t' : JobTask) : Prop :=
  t'.heartbeat = t.heartbeat ∧ t'.knownExpiryMs = t.knownExpiryMs

private theorem sameBeat_dispose (t : JobTask) (error : Option HandlerException) :
    t.SameBeat (t.dispose error) := by
  unfold dispose
  split <;> exact ⟨rfl, rfl⟩

private theorem sameBeat_conclude (t : JobTask) (outcome : Outcome) : t.SameBeat
    (t.conclude outcome) := by
  cases outcome with
  | completed => exact sameBeat_dispose t none
  | failed err => exact sameBeat_dispose t (some err)
  | leaseLost => exact ⟨rfl, rfl⟩

private theorem sameBeat_endPlain (t : JobTask) (how : HandlerEnd) : t.SameBeat
    (t.endPlain how) := by
  unfold endPlain
  split
  · exact sameBeat_conclude _ _
  · exact sameBeat_conclude _ _
  · exact ⟨rfl, rfl⟩

private theorem sameBeat_resumeReap (t : JobTask) (pending : Pending) :
    t.SameBeat (t.resumeReap pending) := by
  unfold resumeReap
  split
  · exact ⟨rfl, rfl⟩
  · split
    · exact ⟨rfl, rfl⟩
    · exact sameBeat_conclude t _

/-- What a step that is neither the heartbeat's own nor an extension can do to the heartbeat. -/
theorem heartbeat_step {e : Event} (beatless : e.IsBeat → e = .heartbeatCancelled)
    (silent : ∀ expiry, e ≠ .ctxExtends expiry) (taken : t.step autoExtend e = some t') :
    t'.knownExpiryMs = t.knownExpiryMs ∧ t.heartbeat.Beside t'.heartbeat := by
  by_cases beat : e.IsBeat
  · obtain rfl := beatless beat
    simp only [step, heartbeatCancelled] at taken
    split at taken
    · cases taken
      exact ⟨rfl, .inr (.inr (.inr rfl))⟩
    · cases taken
      exact ⟨rfl, .inr (.inr (.inr rfl))⟩
    · contradiction
  cases moves_of_step taken with
  | raisesInPlain registry what =>
    obtain ⟨same, known⟩ := sameBeat_endPlain _ (.raised what)
    exact ⟨known, .inl same⟩
  | callsExtended => exact ⟨rfl, .inr (.inr (.inl rfl))⟩
  | endsPlain how =>
    obtain ⟨same, known⟩ := sameBeat_endPlain t how
    exact ⟨known, .inl same⟩
  | resumesHandler => exact ⟨rfl, .inr (.inl rfl)⟩
  | resumesReap pending =>
    obtain ⟨same, known⟩ := sameBeat_resumeReap t pending
    exact ⟨known, .inl same⟩
  | beats _ _ isBeat => exact absurd isBeat beat
  | givesUp => exact absurd trivial beat
  | ctxExtends expiry => exact absurd rfl (silent expiry)
  | cancel =>
    unfold cancel
    split
    · exact ⟨rfl, .inl rfl⟩
    · exact ⟨rfl, .inl rfl⟩
    · exact ⟨rfl, .inl rfl⟩
    · exact ⟨rfl, .inr (.inl rfl)⟩
    · exact ⟨rfl, .inl rfl⟩
  | _ => exact ⟨rfl, .inl rfl⟩

end JobTask

/-- A moment, and what the client's clock shows then; both in nanoseconds. -/
structure Instant where
  moment : ℤ
  shown : ℤ
deriving DecidableEq, Repr

/-- `now_millis()`; `datetime.now` is cut to microseconds. -/
def nowMillis (instant : Instant) : ℤ := datetimeToMillis ⟨instant.shown / 1000, some 0⟩

theorem nowMillis_eq (instant : Instant) : nowMillis instant = instant.shown / 1000000 := by
  simp only [nowMillis, datetimeToMillis, Datetime.instant, Option.getD_some]
  omega

/-- A job task, the moment of its last step, the moment at which the heartbeat's cycle began and the
expiry of the lease on the wire. -/
structure Clocked where
  task : JobTask
  moment : ℤ
  slept : ℤ
  wire : ℤ
deriving DecidableEq

namespace Clocked

/-- How the `Extend` RPC of a call ended, after its retries. -/
abbrev ExtendOutcome := Except PyError Pb.ExtendResponse

inductive Event
  /-- The heartbeat's first step, up to its sleep. -/
  | starts (head : Instant)
  | wakes (moment : ℤ)
  /-- The heartbeat's `extend` ends; a failure is judged at `judged`, and the next cycle begins at
  `head`. -/
  | extended (outcome : ExtendOutcome) (judged head : Instant)
  /-- The handler's `extend` ends. -/
  | ctxExtended (outcome : ExtendOutcome) (moment : ℤ)
  /-- Any other step of the task. -/
  | other (e : JobTask.Event) (moment : ℤ)

/-- The steps of the task that have an event of their own here. -/
def Timed : JobTask.Event → Prop
  | .heartbeatStarts _ => True
  | .heartbeatWakes => True
  | .heartbeatExtends _ _ _ => True
  | .ctxExtends _ => True
  | _ => False

instance : DecidablePred Timed
  | .heartbeatStarts _ => .isTrue trivial
  | .heartbeatWakes => .isTrue trivial
  | .heartbeatExtends _ _ _ => .isTrue trivial
  | .ctxExtends _ => .isTrue trivial
  | .start _ _ => .isFalse id
  | .handlerEnds _ => .isFalse id
  | .resume => .isFalse id
  | .heartbeatCancelled => .isFalse id
  | .callEnds _ => .isFalse id
  | .cancel => .isFalse id

variable (pb : Protobuf) (cfg : AutoExtend)

/-- What `Lease.extend` returns or raises. -/
def result (outcome : ExtendOutcome) : Except PyError Datetime := outcome >>= decodeExtend pb

/-- The expiry on the wire once a call has ended: only one that can be read is granted. -/
def wireAfter (wire : ℤ) : ExtendOutcome → ℤ
  | .ok resp =>
    if (resp.leaseExpiresAt.getD {}).Representable then (resp.leaseExpiresAt.getD {}).nanoseconds
    else wire
  | .error _ => wire

/-- A job that `reserve` has returned, before its task starts. -/
def reserved (j : Pb.Job) (job : Job) (moment : ℤ) : Clocked where
  task := .spawned job
  moment
  slept := moment
  wire := (j.leaseExpiresAt.getD {}).nanoseconds

def starts (head : Instant) (s : Clocked) : Option Clocked :=
  if head.moment < s.moment then none
  else (s.task.heartbeatStarts (some cfg) (nowMillis head)).map fun task =>
    { s with task, moment := head.moment, slept := head.moment }

/-- The sleep has lasted its interval, which is in microseconds. -/
def wakes (moment : ℤ) (s : Clocked) : Option Clocked :=
  match s.task.heartbeat with
  | .sleeping interval _ =>
    if moment < s.moment ∨ moment < s.slept + interval * 1000 then none
    else s.task.heartbeatWakes.map fun task => { s with task, moment }
  | _ => none

def extended (outcome : ExtendOutcome) (judged head : Instant) (s : Clocked) : Option Clocked :=
  if judged.moment < s.moment ∨ head.moment < judged.moment then none
  else
    (s.task.heartbeatExtends (some cfg) (result pb outcome) (nowMillis judged) (nowMillis head)).map
      fun task =>
        { task, moment := head.moment, slept := head.moment, wire := wireAfter s.wire outcome }

def ctxExtended (outcome : ExtendOutcome) (moment : ℤ) (s : Clocked) : Option Clocked :=
  if moment < s.moment then none
  else
    match result pb outcome with
    | .ok expiry => (s.task.step (some cfg) (.ctxExtends expiry)).map fun task =>
      { s with task, moment, wire := wireAfter s.wire outcome }
    | .error _ => some { s with moment }

def other (e : JobTask.Event) (moment : ℤ) (s : Clocked) : Option Clocked :=
  if moment < s.moment ∨ Timed e then none
  else (s.task.step (some cfg) e).map fun task => { s with task, moment }

def step (s : Clocked) : Event → Option Clocked
  | .starts head => s.starts cfg head
  | .wakes moment => s.wakes moment
  | .extended outcome judged head => s.extended pb cfg outcome judged head
  | .ctxExtended outcome moment => s.ctxExtended pb cfg outcome moment
  | .other e moment => s.other cfg e moment

variable {pb cfg} {s t : Clocked}

/-! ## The layer below -/

/-- Time is only added: a step is a step of the job task, or a failed extension of the handler. -/
theorem task_step {e : Event} (taken : s.step pb cfg e = some t) :
    t.task = s.task ∨ ∃ e', s.task.step (some cfg) e' = some t.task := by
  cases e with
  | starts head =>
    simp only [step, starts] at taken
    split_ifs at taken
    obtain ⟨task, stepped, rfl⟩ := Option.map_eq_some_iff.mp taken
    exact .inr ⟨.heartbeatStarts _, stepped⟩
  | wakes moment =>
    simp only [step, wakes] at taken
    split at taken
    · split_ifs at taken
      obtain ⟨task, stepped, rfl⟩ := Option.map_eq_some_iff.mp taken
      exact .inr ⟨.heartbeatWakes, stepped⟩
    · contradiction
  | extended outcome judged head =>
    simp only [step, extended] at taken
    split_ifs at taken
    obtain ⟨task, stepped, rfl⟩ := Option.map_eq_some_iff.mp taken
    exact .inr ⟨.heartbeatExtends _ _ _, stepped⟩
  | ctxExtended outcome moment =>
    simp only [step, ctxExtended] at taken
    split_ifs at taken
    split at taken
    · obtain ⟨task, stepped, rfl⟩ := Option.map_eq_some_iff.mp taken
      exact .inr ⟨.ctxExtends _, stepped⟩
    · cases taken
      exact .inl rfl
  | other e moment =>
    simp only [step, other] at taken
    split_ifs at taken
    obtain ⟨task, stepped, rfl⟩ := Option.map_eq_some_iff.mp taken
    exact .inr ⟨e, stepped⟩

theorem task_run {es : List Event} (run : Run (Steps (step pb cfg)) s es t) :
    ∃ es', Run (Steps (JobTask.step (some cfg))) s.task es' t.task := by
  refine run.simulate (fun _ => True) Clocked.task (fun _ _ => trivial) (fun _ taken => ?_) trivial
  rcases task_step taken with same | ⟨e', stepped⟩
  · exact ⟨[], same ▸ .nil _⟩
  · exact ⟨[e'], .single stepped⟩

/-! ## What a step can do -/

/-- A granted expiry is the one on the wire, cut to milliseconds. -/
theorem datetimeToMillis_of_granted {outcome : ExtendOutcome} {expiry : Datetime}
    (granted : result pb outcome = .ok expiry) (wire : ℤ) :
    datetimeToMillis expiry = wireAfter wire outcome / 1000000 := by
  obtain ⟨resp, rfl, decoded⟩ := Except.bind_eq_ok_iff.mp granted
  obtain ⟨readable, rfl⟩ := (decodeExtend_ok_iff pb).mp decoded
  rw [wireAfter, if_pos readable, Pb.Timestamp.datetimeToMillis_toUtc]

/-- A failed call leaves the lease on the wire as it is. -/
theorem wireAfter_of_failed {outcome : ExtendOutcome} {err : PyError}
    (failed : result pb outcome = .error err) (wire : ℤ) : wireAfter wire outcome = wire := by
  cases outcome with
  | error _ => rfl
  | ok resp =>
    refine if_neg fun readable => ?_
    have decoded : decodeExtend pb resp = .ok _ := (decodeExtend_ok_iff pb).mpr ⟨readable, rfl⟩
    have granted : result pb (.ok resp) = decodeExtend pb resp := rfl
    rw [granted, decoded] at failed
    contradiction

variable (pb cfg s) in
/-- What a step can do, with the conditions under which it does. -/
inductive Ticks : Event → Clocked → Prop
  | starts (head : Instant) (later : s.moment ≤ head.moment)
      (created : s.task.heartbeat = .created false) :
    Ticks (.starts head)
      { s with
        task := s.task.sleep cfg (nowMillis head)
        moment := head.moment
        slept := head.moment }
  | wakes (moment : ℤ) (interval : Timedelta) (later : s.moment ≤ moment)
      (rested : s.slept + interval * 1000 ≤ moment)
      (sleeping : s.task.heartbeat = .sleeping interval false) :
    Ticks (.wakes moment) { s with task := { s.task with heartbeat := .extending false }, moment }
  | renewed (outcome : ExtendOutcome) (judged head : Instant) (flag : Bool) (expiry : Datetime)
      (later : s.moment ≤ judged.moment) (ended : judged.moment ≤ head.moment)
      (extending : s.task.heartbeat = .extending flag) (granted : result pb outcome = .ok expiry) :
    Ticks (.extended outcome judged head) {
      task := { s.task with knownExpiryMs := datetimeToMillis expiry }.sleep cfg (nowMillis head)
      moment := head.moment
      slept := head.moment
      wire := wireAfter s.wire outcome }
  | tolerated (outcome : ExtendOutcome) (judged head : Instant) (flag : Bool) (err : PyError)
      (later : s.moment ≤ judged.moment) (ended : judged.moment ≤ head.moment)
      (extending : s.task.heartbeat = .extending flag) (failed : result pb outcome = .error err)
      (early : nowMillis judged < s.task.knownExpiryMs) :
    Ticks (.extended outcome judged head)
      { s with
        task := s.task.sleep cfg (nowMillis head)
        moment := head.moment
        slept := head.moment }
  | gaveUp (outcome : ExtendOutcome) (judged head : Instant) (flag : Bool)
      (later : s.moment ≤ judged.moment) (ended : judged.moment ≤ head.moment)
      (extending : s.task.heartbeat = .extending flag)
      (lost : judgeExtend s.task.knownExpiryMs (nowMillis judged) (result pb outcome) = .lost) :
    Ticks (.extended outcome judged head)
      { s with
        task := { s.task with
          heartbeat := .done
          leaseLost := true
          handlerTask := s.task.handlerTask.cancel }
        moment := head.moment
        slept := head.moment }
  | crashed (outcome : ExtendOutcome) (judged head : Instant) (flag : Bool) (err : PyError)
      (later : s.moment ≤ judged.moment) (ended : judged.moment ≤ head.moment)
      (extending : s.task.heartbeat = .extending flag) (failed : result pb outcome = .error err)
      (foreign : err.isSeppError = false) :
    Ticks (.extended outcome judged head)
      { s with
        task := { s.task with heartbeat := .done }
        moment := head.moment
        slept := head.moment }
  | ctxRenewed (outcome : ExtendOutcome) (moment : ℤ) (expiry : Datetime)
      (later : s.moment ≤ moment) (granted : result pb outcome = .ok expiry) :
    Ticks (.ctxExtended outcome moment)
      { s with
        task := { s.task with knownExpiryMs := datetimeToMillis expiry }
        moment
        wire := wireAfter s.wire outcome }
  | ctxFailed (outcome : ExtendOutcome) (moment : ℤ) (err : PyError) (later : s.moment ≤ moment)
      (failed : result pb outcome = .error err) :
    Ticks (.ctxExtended outcome moment) { s with moment }
  | other (e : JobTask.Event) (moment : ℤ) (task : JobTask) (later : s.moment ≤ moment)
      (untimed : ¬ Timed e) (stepped : s.task.step (some cfg) e = some task) :
    Ticks (.other e moment) { s with task, moment }

/-- What a failed call is judged to be. -/
theorem judgeExtend_error (known now : ℤ) (err : PyError) :
    judgeExtend known now (.error err) = .lost ∨
      judgeExtend known now (.error err) = .tolerated ∧ now < known ∨
      judgeExtend known now (.error err) = .crashed ∧ err.isSeppError = false := by
  cases err with
  | sepp err =>
    cases err with
    | attemptMismatchError => exact .inl rfl
    | jobNotFoundError => exact .inl rfl
    | _ =>
      by_cases late : now ≥ known
      · exact .inl (if_pos late)
      · exact .inr (.inl ⟨if_neg late, not_le.mp late⟩)
  | _ => exact .inr (.inr ⟨rfl, rfl⟩)

private theorem ticks_of_extended {outcome : ExtendOutcome} {judged head : Instant}
    (taken : s.extended pb cfg outcome judged head = some t) :
    Ticks pb cfg s (.extended outcome judged head) t := by
  unfold extended at taken
  split at taken
  · contradiction
  next times =>
  rw [not_or, not_lt, not_lt] at times
  obtain ⟨later, ended⟩ := times
  obtain ⟨task, stepped, rfl⟩ := Option.map_eq_some_iff.mp taken
  unfold JobTask.heartbeatExtends at stepped
  split at stepped
  · next flag _ extending same =>
    cases same
    cases outcome_eq : result pb outcome with
    | ok expiry =>
      rw [outcome_eq] at stepped
      cases stepped
      exact .renewed outcome judged head flag expiry later ended extending outcome_eq
    | error err =>
      rw [wireAfter_of_failed outcome_eq]
      rw [outcome_eq] at stepped
      rcases judgeExtend_error s.task.knownExpiryMs (nowMillis judged) err with
        lost | ⟨tolerated, early⟩ | ⟨crashed, foreign⟩
      · simp only [lost] at stepped
        cases stepped
        exact .gaveUp outcome judged head flag later ended extending (outcome_eq ▸ lost)
      · simp only [tolerated] at stepped
        cases stepped
        exact .tolerated outcome judged head flag err later ended extending outcome_eq early
      · simp only [crashed] at stepped
        cases stepped
        exact .crashed outcome judged head flag err later ended extending outcome_eq foreign
  · contradiction

/-- Every step is one of these. -/
theorem ticks_of_step {e : Event} (taken : s.step pb cfg e = some t) : Ticks pb cfg s e t := by
  cases e with
  | starts head =>
    simp only [step, starts] at taken
    split at taken
    · contradiction
    · next later =>
      obtain ⟨task, stepped, rfl⟩ := Option.map_eq_some_iff.mp taken
      unfold JobTask.heartbeatStarts at stepped
      split at stepped
      · next created same =>
        cases same
        cases stepped
        exact .starts head (not_lt.mp later) created
      · contradiction
  | wakes moment =>
    simp only [step, wakes] at taken
    split at taken
    · next interval flag sleeping =>
      split at taken
      · contradiction
      · next times =>
        rw [not_or, not_lt, not_lt] at times
        obtain ⟨task, stepped, rfl⟩ := Option.map_eq_some_iff.mp taken
        unfold JobTask.heartbeatWakes at stepped
        split at stepped
        · next interval' sleeping' =>
          cases stepped
          cases sleeping.symm.trans sleeping'
          exact .wakes moment interval times.1 times.2 sleeping'
        · contradiction
    · contradiction
  | extended outcome judged head => exact ticks_of_extended taken
  | ctxExtended outcome moment =>
    simp only [step, ctxExtended] at taken
    split at taken
    · contradiction
    · next later =>
      split at taken
      · next expiry granted =>
        cases taken
        exact .ctxRenewed outcome moment expiry (not_lt.mp later) granted
      · next err failed =>
        cases taken
        exact .ctxFailed outcome moment err (not_lt.mp later) failed
  | other e moment =>
    simp only [step, other] at taken
    split at taken
    · contradiction
    · next times =>
      rw [not_or, not_lt] at times
      obtain ⟨task, stepped, rfl⟩ := Option.map_eq_some_iff.mp taken
      exact .other e moment task times.1 times.2 stepped

end Clocked

/-! ## Intervals of at least a millisecond -/

/-- An explicit interval is at least a millisecond. -/
def AutoExtend.Floored (cfg : AutoExtend) : Prop :=
  ∀ interval ∈ cfg.explicitInterval, 1000 ≤ interval

/-- The constructor of the worker clamps the interval. -/
theorem Worker.floored_of_init {defaultWorkerId : String} {args : WorkerArgs} {worker : Worker}
    {cfg : AutoExtend} (made : Worker.init defaultWorkerId args = .ok worker)
    (on : worker.autoExtend = some cfg) : cfg.Floored := by
  obtain ⟨opts, _, built⟩ := Except.bind_eq_ok_iff.mp made
  cases built
  simp only [autoExtendOf] at on
  split at on
  · cases on
    rintro _ clamped
    obtain ⟨interval, _, rfl⟩ := Option.map_eq_some_iff.mp clamped
    exact le_max_right interval (.ofMillis 1)
  · contradiction

private theorem AutoExtend.interval_ge {cfg : AutoExtend} (floored : cfg.Floored) (known now : ℤ) :
    1000 ≤ cfg.interval known now := by
  unfold interval
  cases explicit : cfg.explicitInterval with
  | none => exact le_max_right _ (Timedelta.ofMillis 1)
  | some interval => exact floored interval explicit

namespace Clocked

variable {pb : Protobuf} {cfg : AutoExtend} {s t : Clocked}

/-- The task knows the lease on the wire to the millisecond; a sleep is a millisecond at least, and
an extension is under way only after one. -/
structure Timely (s : Clocked) : Prop where
  known : s.task.knownExpiryMs = s.wire / 1000000
  slept : s.slept ≤ s.moment
  sleeping : ∀ interval flag, s.task.heartbeat = .sleeping interval flag → 1000 ≤ interval
  extending : ∀ flag, s.task.heartbeat = .extending flag → s.slept + 1000000 ≤ s.moment

/-- Time may pass. -/
theorem Timely.wait (timely : s.Timely) {moment : ℤ} (later : s.moment ≤ moment) :
    Timely { s with moment } where
  known := timely.known
  slept := le_trans timely.slept later
  sleeping := timely.sleeping
  extending flag beating := le_trans (timely.extending flag beating) later

/-- A cycle begins. -/
theorem timely_sleep (floored : cfg.Floored) (task : JobTask) (head : Instant) {wire : ℤ}
    (known : task.knownExpiryMs = wire / 1000000) :
    Timely ⟨task.sleep cfg (nowMillis head), head.moment, head.moment, wire⟩ where
  known := known
  slept := le_rfl
  sleeping interval flag sleeping := by
    cases sleeping
    exact AutoExtend.interval_ge floored _ _
  extending flag extending := by cases extending

/-- The heartbeat has ended. -/
theorem timely_done {task : JobTask} {moment wire : ℤ} (ended : task.heartbeat = .done)
    (known : task.knownExpiryMs = wire / 1000000) : Timely ⟨task, moment, moment, wire⟩ where
  known := known
  slept := le_rfl
  sleeping interval flag sleeping := by
    rw [ended] at sleeping
    contradiction
  extending flag extending := by
    rw [ended] at extending
    contradiction

/-- What happens beside the heartbeat changes neither its interval nor its phase. -/
theorem Timely.other (timely : s.Timely) {task : JobTask}
    (known : task.knownExpiryMs = s.task.knownExpiryMs)
    (beside : s.task.heartbeat.Beside task.heartbeat) : Timely { s with task } where
  known := known.trans timely.known
  slept := timely.slept
  sleeping interval flag sleeping := by
    obtain ⟨flag', before⟩ := beside.sleeping sleeping
    exact timely.sleeping interval flag' before
  extending flag extending := by
    obtain ⟨flag', before⟩ := beside.extending extending
    exact timely.extending flag' before

theorem other_beat {e : JobTask.Event} {task : JobTask} (untimed : ¬ Timed e)
    (stepped : s.task.step (some cfg) e = some task) :
    task.knownExpiryMs = s.task.knownExpiryMs ∧
      s.task.heartbeat.Beside task.heartbeat := by
  refine JobTask.heartbeat_step (fun beat => ?_) ?_ stepped
  · cases e with
    | heartbeatCancelled => rfl
    | heartbeatStarts | heartbeatWakes | heartbeatExtends => exact absurd trivial untimed
    | start | handlerEnds | resume | ctxExtends | callEnds | cancel => exact beat.elim
  · rintro expiry rfl
    exact untimed trivial

theorem Timely.step (floored : cfg.Floored) (timely : s.Timely) {e : Event}
    (taken : s.step pb cfg e = some t) : t.Timely := by
  cases ticks_of_step taken with
  | starts head => exact timely_sleep floored s.task head timely.known
  | wakes moment interval later rested sleeping =>
    have long : (1000 : ℤ) ≤ interval := timely.sleeping interval false sleeping
    exact {
      known := timely.known
      slept := le_trans timely.slept later
      sleeping := fun _ _ sleeping => nomatch sleeping
      extending := fun _ _ => by
        show s.slept + 1000000 ≤ moment
        omega }
  | renewed outcome judged head flag expiry _ _ _ granted =>
    exact timely_sleep floored { s.task with knownExpiryMs := datetimeToMillis expiry } head
      (datetimeToMillis_of_granted granted s.wire)
  | tolerated outcome judged head => exact timely_sleep floored s.task head timely.known
  | gaveUp => exact timely_done rfl timely.known
  | crashed => exact timely_done rfl timely.known
  | ctxRenewed outcome moment expiry later granted =>
    have waited := timely.wait later
    exact {
      known := datetimeToMillis_of_granted granted s.wire
      slept := waited.slept
      sleeping := waited.sleeping
      extending := waited.extending }
  | ctxFailed outcome moment err later => exact timely.wait later
  | other e moment task later untimed stepped =>
    obtain ⟨known, beside⟩ := other_beat untimed stepped
    exact (timely.wait later).other known beside

theorem timely_reserved {j : Pb.Job} {workerId : Option String} {job : Job}
    (decoded : jobFromPb pb j workerId = .ok job) (moment : ℤ) : (reserved j job moment).Timely := by
  obtain ⟨_, _, _, _, _, _, rfl⟩ := jobFromPb_ok decoded
  exact {
    known := Pb.Timestamp.datetimeToMillis_toUtc _
    slept := le_rfl
    sleeping := fun _ _ sleeping => nomatch sleeping
    extending := fun _ extending => nomatch extending }

/-- A job leased for thirty seconds, ten seconds before its first extension. -/
def dozing : Clocked where
  task := { JobTask.spawned leasedJob with
    pc := .awaitHandler
    handlerTask := .running false
    heartbeat := .sleeping 10000000 false
    lookedUp := some JobTask.catchAllOnly
    handlerCall := some .awaitable }
  moment := 0
  slept := 0
  wire := 30000000000

end Clocked

end SeppPy
