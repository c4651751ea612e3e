import SeppPy.Worker.Clocked

/-! # Renewing before the lease ends

Without an explicit interval the heartbeat sleeps a third of the lease that the client believes to be
left. The lease is the server's and ends by the server's clock, so here the moments are the
server's, and what the client reads off its own clock may differ from them. Flooring both the
expiry and the clock to milliseconds, rounding the third to microseconds and the floor of a
millisecond never make the sleep longer than the lease, as long as the server's clock is not ahead
of the client's by twice that lease.
-/

namespace SeppPy

open Machine

/-- A third of what the client believes to be left, rounded, is less than what is left: `wire` is
the end of the lease, `moment` the server's clock and `shown` the client's, in nanoseconds. -/
theorem heartbeatInterval_lt {wire moment shown : ℤ} (left : 1000000 < wire - moment)
    (skew : moment - shown < 2 * (wire - moment) - 2000000) :
    heartbeatInterval (.ofMillis (max 0 (wire / 1000000 - shown / 1000000))) * 1000 <
      wire - moment := by
  obtain ⟨known, known_eq⟩ : ∃ known : ℤ, known = max 0 (wire / 1000000 - shown / 1000000) :=
    ⟨_, rfl⟩
  rw [← known_eq]
  obtain ⟨third, third_eq⟩ : ∃ third : ℤ, third = (Timedelta.ofMillis known).divide 3 := ⟨_, rfl⟩
  have rounded : 6 * third ≤ 2 * (known * 1000) + 3 :=
    third_eq ▸ Timedelta.divide_le (.ofMillis known) (by norm_num)
  have interval : heartbeatInterval (.ofMillis known) = max third 1000 := by
    rw [third_eq]
    rfl
  rw [interval]
  change max third 1000 * 1000 < wire - moment
  omega

namespace Clocked

/-- The beginning of a cycle. -/
def Event.head? : Event → Option Instant
  | .starts head => some head
  | .extended _ _ head => some head
  | _ => none

/-- The moment at which the event is over. -/
def Event.endsAt : Event → ℤ
  | .starts head => head.moment
  | .wakes moment => moment
  | .extended _ _ head => head.moment
  | .ctxExtended _ moment => moment
  | .other _ moment => moment

/-- More than a millisecond of the lease is left, and the server's clock is ahead of the client's by
less than twice that, or behind it. -/
def Covered (wire : ℤ) (head : Instant) : Prop :=
  1000000 < wire - head.moment ∧ head.moment - head.shown < 2 * (wire - head.moment) - 2000000

/-- A cycle that begins covered sleeps for less than the lease that is left. -/
def Shorter (_ : Clocked) (e : Event) (next : Clocked) : Prop :=
  ∀ head ∈ e.head?, ∀ interval flag, next.task.heartbeat = .sleeping interval flag →
    Covered next.wire head → interval * 1000 < next.wire - head.moment

/-- An `extend` is sent when the heartbeat wakes, and the attempts it makes are over when it ends; up
to then the lease is in force. -/
def InTime (s : Clocked) (e : Event) (_ : Clocked) : Prop :=
  (∀ moment, e = .wakes moment → moment < s.wire) ∧
    ∀ outcome judged head, e = .extended outcome judged head → judged.moment < s.wire

variable (pb : Protobuf) (cfg : AutoExtend)

/-- Sleeps are exact, extensions take no time, no extension of the handler shortens the lease, and
every cycle begins covered. -/
structure Punctual (s : Clocked) (e : Event) : Prop where
  exact : ∀ interval flag moment, s.task.heartbeat = .sleeping interval flag → e = .wakes moment →
    moment = s.slept + interval * 1000
  instantaneous : ∀ flag, s.task.heartbeat = .extending flag → e.endsAt = s.moment
  growing : ∀ outcome moment, e = .ctxExtended outcome moment → s.wire ≤ wireAfter s.wire outcome
  covered : ∀ next, s.step pb cfg e = some next → ∀ head ∈ e.head?, ∀ interval flag,
    next.task.heartbeat = .sleeping interval flag → Covered next.wire head

variable {pb cfg} {s t : Clocked} {e : Event}

/-- The cycle that begins at `head` sleeps for less than the lease that is left then. -/
theorem interval_lt (derived : cfg.explicitInterval = none) {known wire : ℤ} {head : Instant}
    (same : known = wire / 1000000) (covered : Covered wire head) :
    cfg.interval known (nowMillis head) * 1000 < wire - head.moment := by
  rw [AutoExtend.interval, derived, Option.getD_none, same, nowMillis_eq]
  exact heartbeatInterval_lt covered.1 covered.2

private theorem shorter_of_step (derived : cfg.explicitInterval = none) (timely : s.Timely)
    (taken : s.step pb cfg e = some t) : Shorter s e t := by
  cases ticks_of_step taken with
  | starts head later created =>
    rintro _ ⟨⟩ interval flag ⟨⟩ covered
    exact interval_lt derived timely.known covered
  | renewed outcome judged head flag expiry _ _ _ granted =>
    rintro _ ⟨⟩ interval flag ⟨⟩ covered
    exact interval_lt derived (datetimeToMillis_of_granted granted s.wire) covered
  | tolerated outcome judged head =>
    rintro _ ⟨⟩ interval flag ⟨⟩ covered
    exact interval_lt derived timely.known covered
  | gaveUp => rintro _ ⟨⟩ interval flag ⟨⟩
  | crashed => rintro _ ⟨⟩ interval flag ⟨⟩
  | wakes | ctxRenewed | ctxFailed | other => rintro _ ⟨⟩

/-- The lease outlasts the sleep, and the extension that follows it. -/
structure Renewing (s : Clocked) : Prop where
  timely : s.Timely
  sleeping : ∀ interval flag, s.task.heartbeat = .sleeping interval flag →
    s.slept + interval * 1000 < s.wire
  extending : ∀ flag, s.task.heartbeat = .extending flag → s.moment < s.wire

/-- Before the heartbeat exists and after it has ended there is nothing to outlast. -/
theorem renewing_idle (timely : s.Timely)
    (idle : s.task.heartbeat = .absent ∨ s.task.heartbeat = .done) : s.Renewing where
  timely := timely
  sleeping interval flag sleeping := by
    rcases idle with absent | ended
    · cases absent.symm.trans sleeping
    · cases ended.symm.trans sleeping
  extending flag extending := by
    rcases idle with absent | ended
    · cases absent.symm.trans extending
    · cases ended.symm.trans extending

/-- What happens beside the heartbeat lets the lease outlast it, unless it shortens the lease or
delays an extension under way. -/
theorem Renewing.beside (renewing : s.Renewing) (timely : t.Timely) (slept : t.slept = s.slept)
    (wire : s.wire ≤ t.wire) (still : ∀ flag, s.task.heartbeat = .extending flag → t.moment = s.moment)
    (beside : s.task.heartbeat.Beside t.task.heartbeat) : t.Renewing := by
  refine ⟨timely, fun interval flag sleeping => ?_, fun flag extending => ?_⟩
  · obtain ⟨flag', before⟩ := beside.sleeping sleeping
    rw [slept]
    exact lt_of_lt_of_le (renewing.sleeping interval flag' before) wire
  · obtain ⟨flag', before⟩ := beside.extending extending
    rw [still flag' before]
    exact lt_of_lt_of_le (renewing.extending flag' before) wire

theorem Renewing.step (derived : cfg.explicitInterval = none) (renewing : s.Renewing)
    (taken : Guarded (Steps (Clocked.step pb cfg)) (Punctual pb cfg) s e t) : t.Renewing := by
  have floored : cfg.Floored := fun interval explicit => by
    rw [derived] at explicit
    contradiction
  have timely := renewing.timely.step floored taken.1
  have shorter := shorter_of_step derived renewing.timely taken.1
  obtain ⟨stepped, exactly, instantaneous, growing, covered⟩ := taken
  -- a cycle that begins is covered, so the lease outlasts its sleep
  have begins {head : Instant} (first : e.head? = some head) (slept : t.slept = head.moment)
      (awake : ∀ flag, t.task.heartbeat ≠ .extending flag) : t.Renewing := by
    refine ⟨timely, fun interval flag sleeping => ?_, fun flag extending => absurd extending (awake flag)⟩
    rw [slept]
    exact lt_sub_iff_add_lt'.mp (shorter head first interval flag sleeping
      (covered t stepped head first interval flag sleeping))
  cases ticks_of_step stepped with
  | starts head => exact begins rfl rfl fun _ => nofun
  | renewed outcome judged head => exact begins rfl rfl fun _ => nofun
  | tolerated outcome judged head => exact begins rfl rfl fun _ => nofun
  | gaveUp => exact renewing_idle timely (.inr rfl)
  | crashed => exact renewing_idle timely (.inr rfl)
  | wakes moment interval later rested sleeping =>
    refine ⟨timely, fun _ _ sleeping => (nomatch sleeping), fun _ _ => ?_⟩
    show moment < s.wire
    rw [exactly interval false moment sleeping rfl]
    exact renewing.sleeping interval false sleeping
  | ctxRenewed outcome moment expiry later granted =>
    exact renewing.beside timely rfl (growing outcome moment rfl) instantaneous (.inl rfl)
  | ctxFailed outcome moment err later failed =>
    exact renewing.beside timely rfl le_rfl instantaneous (.inl rfl)
  | other e moment task later untimed beside =>
    exact renewing.beside timely rfl le_rfl instantaneous (other_beat untimed beside).2

/-- Whatever is sent, is sent while the lease is in force. -/
theorem Renewing.inTime (renewing : s.Renewing)
    (taken : Guarded (Steps (Clocked.step pb cfg)) (Punctual pb cfg) s e t) : InTime s e t := by
  obtain ⟨stepped, exactly, instantaneous, _, _⟩ := taken
  constructor
  · rintro moment rfl
    cases ticks_of_step stepped with
    | wakes _ interval later rested sleeping =>
      rw [exactly interval false moment sleeping rfl]
      exact renewing.sleeping interval false sleeping
  · rintro outcome judged head rfl
    have phase : ∃ flag, s.task.heartbeat = .extending flag ∧ judged.moment ≤ head.moment := by
      cases ticks_of_step stepped with
      | renewed _ _ _ flag _ _ ended extending => exact ⟨flag, extending, ended⟩
      | tolerated _ _ _ flag _ _ ended extending => exact ⟨flag, extending, ended⟩
      | gaveUp _ _ _ flag _ ended extending => exact ⟨flag, extending, ended⟩
      | crashed _ _ _ flag _ _ ended extending => exact ⟨flag, extending, ended⟩
    obtain ⟨flag, extending, ended⟩ := phase
    have punctual : head.moment = s.moment := instantaneous flag extending
    exact lt_of_le_of_lt (punctual ▸ ended) (renewing.extending flag extending)

/-- Every cycle that begins covered sleeps for less than the lease that is left, whatever has happened
before; and if sleeps are exact, extensions take no time and every cycle begins covered, every
extension is sent while the lease is in force. -/
theorem renews_before_expiry (pb : Protobuf) (cfg : AutoExtend)
    (derived : cfg.explicitInterval = none) (j : Pb.Job) (workerId : Option String) (job : Job)
    (decoded : jobFromPb pb j workerId = .ok job) (moment : ℤ) (es : List Event) (s : Clocked) :
    (Run (Steps (step pb cfg)) (reserved j job moment) es s →
        Run (Ensuring (Steps (step pb cfg)) Shorter) (reserved j job moment) es s) ∧
      (Run (Guarded (Steps (step pb cfg)) (Punctual pb cfg)) (reserved j job moment) es s →
        Run (Ensuring (Guarded (Steps (step pb cfg)) (Punctual pb cfg)) InTime)
          (reserved j job moment) es s) := by
  have floored : cfg.Floored := fun interval explicit => by
    rw [derived] at explicit
    contradiction
  have timely := timely_reserved decoded moment
  constructor
  · intro run
    exact run.ensure Timely (fun timely taken => timely.step floored taken)
      (fun timely taken => shorter_of_step derived timely taken) timely
  · intro run
    exact run.ensure Renewing (fun renewing taken => renewing.step derived taken)
      (fun renewing taken => renewing.inTime taken) (renewing_idle timely (.inl rfl))

/-- The default of `auto_extend`, with a lease duration of thirty seconds. -/
def byThirds : AutoExtend := ⟨none, 30000000⟩

/-- A job whose task has started, with a heartbeat that has not. -/
def begun : Clocked :=
  { dozing with task := { dozing.task with heartbeat := .created false } }

/-- A sleep that lasts exactly its interval. -/
theorem punctual_wakes {interval : Timedelta} {flag : Bool} {moment : ℤ}
    (sleeping : s.task.heartbeat = .sleeping interval flag)
    (exactly : moment = s.slept + interval * 1000) : Punctual pb cfg s (.wakes moment) where
  exact interval' flag' moment' sleeping' woken := by
    cases sleeping.symm.trans sleeping'
    cases woken
    exact exactly
  instantaneous flag' extending := by cases sleeping.symm.trans extending
  growing _ _ other := by cases other
  covered _ _ _ head := by cases head

/-- A heartbeat that starts a covered cycle. -/
theorem punctual_starts {head : Instant} (created : s.task.heartbeat = .created false)
    (stepped : s.step pb cfg (.starts head) = some t) (covered : Covered t.wire head) :
    Punctual pb cfg s (.starts head) where
  exact _ _ _ sleeping := by cases created.symm.trans sleeping
  instantaneous _ extending := by cases created.symm.trans extending
  growing _ _ other := by cases other
  covered next stepped' _ first _ _ _ := by
    cases stepped.symm.trans stepped'
    cases first
    exact covered

/-- An extension that takes no time, after which a covered cycle begins. -/
theorem punctual_extended {flag : Bool} {outcome : ExtendOutcome} {judged head : Instant}
    (extending : s.task.heartbeat = .extending flag) (now : head.moment = s.moment)
    (stepped : s.step pb cfg (.extended outcome judged head) = some t)
    (covered : Covered t.wire head) : Punctual pb cfg s (.extended outcome judged head) where
  exact _ _ _ sleeping := by cases extending.symm.trans sleeping
  instantaneous _ _ := now
  growing _ _ other := by cases other
  covered next stepped' _ first _ _ _ := by
    cases stepped.symm.trans stepped'
    cases first
    exact covered

/-- What the first extension grants: the lease ends after thirty-nine seconds. -/
def grantedOnce : ExtendOutcome := .ok ⟨some ⟨39, 0⟩⟩

/-- Three cycles. The client's clock is three seconds ahead of the server's in the first, two behind
it in the second and right in the third, before which an extension fails. -/
def skewed : List Event :=
  [.other (.start JobTask.catchAllOnly .awaitable) 0, .starts ⟨0, 3000000000⟩, .wakes 9000000000,
    .extended grantedOnce ⟨9000000000, 7000000000⟩ ⟨9000000000, 7000000000⟩, .wakes 19666667000,
    .extended (.error (.sepp (.transportError ""))) ⟨19666667000, 19666667000⟩
      ⟨19666667000, 19666667000⟩,
    .wakes 26111334000]

/-- A state of that run. -/
def cycling (heartbeat : Heartbeat) (knownExpiryMs moment slept wire : ℤ) : Clocked :=
  { task := { begun.task with heartbeat, knownExpiryMs }, moment, slept, wire }

/-- All three extensions are sent while the lease is in force. -/
theorem renews_before_expiry_once :
    Run (Ensuring (Guarded (Steps (step .checked byThirds)) (Punctual .checked byThirds)) InTime)
      (reserved leasedMessage leasedJob 0) skewed
      (cycling (.extending false) 39000 26111334000 19666667000 39000000000) := by
  let first := cycling (.sleeping 9000000 false) 30000 0 0 30000000000
  let firstSent := cycling (.extending false) 30000 9000000000 0 30000000000
  let second := cycling (.sleeping 10666667 false) 39000 9000000000 9000000000 39000000000
  let secondSent := cycling (.extending false) 39000 19666667000 9000000000 39000000000
  let third := cycling (.sleeping 6444667 false) 39000 19666667000 19666667000 39000000000
  have begins : Punctual .checked byThirds (reserved leasedMessage leasedJob 0)
      (.other (.start JobTask.catchAllOnly .awaitable) 0) := {
    exact := fun _ _ _ _ => nofun
    instantaneous := fun _ => nofun
    growing := fun _ _ => nofun
    covered := fun _ _ _ => nofun }
  have starts : begun.step .checked byThirds (.starts ⟨0, 3000000000⟩) = some first := by
    decide +kernel
  have renews : firstSent.step .checked byThirds
      (.extended grantedOnce ⟨9000000000, 7000000000⟩ ⟨9000000000, 7000000000⟩) = some second := by
    decide +kernel
  have fails : secondSent.step .checked byThirds
      (.extended (.error (.sepp (.transportError ""))) ⟨19666667000, 19666667000⟩
        ⟨19666667000, 19666667000⟩) = some third := by
    decide +kernel
  refine (renews_before_expiry .checked byThirds rfl leasedMessage none leasedJob rfl 0 _ _).2 ?_
  refine .cons (show Guarded _ _ _ _ begun from ⟨rfl, begins⟩) ?_
  refine .cons ⟨starts, punctual_starts rfl starts ⟨by decide, by decide⟩⟩ ?_
  refine .cons (show Guarded _ _ first _ firstSent from ⟨rfl, punctual_wakes rfl rfl⟩) ?_
  refine .cons ⟨renews, punctual_extended rfl rfl renews ⟨by decide, by decide⟩⟩ ?_
  refine .cons (show Guarded _ _ second _ secondSent from ⟨rfl, punctual_wakes rfl rfl⟩) ?_
  refine .cons ⟨fails, punctual_extended rfl rfl fails ⟨by decide, by decide⟩⟩ ?_
  exact .cons ⟨rfl, punctual_wakes rfl rfl⟩ (.nil _)

end Clocked

end SeppPy
