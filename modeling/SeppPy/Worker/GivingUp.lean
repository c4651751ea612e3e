import SeppPy.Worker.Clocked

/-! # When the heartbeat gives up

As long as the extensions fail, the heartbeat tries again until the lease has run out. The loop has
no counter; what bounds it is the lease that remains, in whole milliseconds, of which every cycle
takes at least one. Both sides of the comparison with the known expiry are cut to milliseconds, the
clock and the expiry, so a failure before the expiry on the wire may be taken for one after it, but
only within the last millisecond.
-/

namespace SeppPy

open Machine

namespace Clocked

/-- The heartbeat reads the moment itself off the client's clock. -/
def Event.Faithful : Event → Prop
  | .starts head => head.shown = head.moment
  | .extended _ judged head => judged.shown = judged.moment ∧ head.shown = head.moment
  | _ => True

/-- An `extend` of the heartbeat has ended. -/
def Event.isExtended : Event → Bool
  | .extended _ _ _ => true
  | _ => false

/-- The next step of the heartbeat after it has begun a cycle. -/
def Event.Beats : Event → Prop
  | .wakes _ => True
  | .extended _ _ _ => True
  | _ => False

variable (pb : Protobuf) (cfg : AutoExtend)

/-- The call failed, and not because the lease is gone. -/
def Refused (outcome : ExtendOutcome) : Prop :=
  ∃ err, result pb outcome = .error (.sepp err) ∧ err ≠ .attemptMismatchError ∧
    err ≠ .jobNotFoundError

/-- The heartbeat's extensions are refused, no other one succeeds, and the heartbeat is not
cancelled. -/
def Failing (s : Clocked) (e : Event) : Prop :=
  e.Faithful ∧
    match e with
    | .extended outcome _ _ => Refused pb outcome
    | .ctxExtended outcome _ => ∃ err, result pb outcome = .error err
    | .other e _ => ∀ task, s.task.step (some cfg) e = some task → task.heartbeat = s.task.heartbeat
    | _ => True

/-- A failure that the heartbeat tolerates is judged before the lease ends at `wire`; one on which it
gives up is judged at most a millisecond before that, and the handler is cancelled. -/
def Judged (wire : ℤ) (s : Clocked) (e : Event) (next : Clocked) : Prop :=
  ∀ outcome judged head, e = .extended outcome judged head →
    (next.task.heartbeat ≠ .done → judged.moment < wire) ∧
      (next.task.heartbeat = .done → wire < judged.moment + 1000000 ∧
        next.task.leaseLost = true ∧ next.task.handlerTask = s.task.handlerTask.cancel)

/-- The heartbeat is in its loop, or it has given up. -/
def Looping (s : Clocked) : Prop :=
  (∃ interval, s.task.heartbeat = .sleeping interval false) ∨ s.task.heartbeat = .extending false ∨
    s.task.heartbeat = .done ∧ s.task.leaseLost = true

/-- The lease that remained when the cycle began, in milliseconds. -/
def remaining (s : Clocked) : ℤ := s.task.knownExpiryMs - nowMillis ⟨s.slept, s.slept⟩

/-- How many extensions may still fail. -/
def budget (s : Clocked) : ℕ := if s.task.heartbeat = .done then 0 else (max 1 s.remaining).toNat

/-- What every step of such a block keeps. -/
structure InBlock (wire : ℤ) (s : Clocked) : Prop where
  timely : s.Timely
  looping : s.Looping
  wire : s.wire = wire

variable {pb cfg} {s t : Clocked} {wire : ℤ} {e : Event}

private theorem remaining_eq
    (s : Clocked) : s.remaining = s.task.knownExpiryMs - s.slept / 1000000 := by
  rw [remaining, nowMillis_eq]

variable (s) in
/-- What a step of such a block can do: something else happens or the heartbeat wakes, it tolerates a
failure, or it gives up on one. -/
inductive Fails : Event → Clocked → Prop
  | waits {e : Event} {t : Clocked} (quiet : e.isExtended = false) (looping : t.Looping)
      (wire : t.wire = s.wire) (budget : t.budget = s.budget) : Fails e t
  | tolerates (outcome : ExtendOutcome) (judged head : Instant) {t : Clocked}
      (extending : s.task.heartbeat = .extending false) (later : s.moment ≤ judged.moment)
      (ended : judged.moment ≤ head.moment)
      (early : judged.moment / 1000000 < s.task.knownExpiryMs) (goesOn : t.task.heartbeat ≠ .done)
      (looping : t.Looping) (wire : t.wire = s.wire)
      (known : t.task.knownExpiryMs = s.task.knownExpiryMs) (slept : t.slept = head.moment) :
    Fails (.extended outcome judged head) t
  | givesUp (outcome : ExtendOutcome) (judged head : Instant) {t : Clocked}
      (extending : s.task.heartbeat = .extending false)
      (late : s.task.knownExpiryMs ≤ judged.moment / 1000000) (ended : t.task.heartbeat = .done)
      (lost : t.task.leaseLost = true) (wire : t.wire = s.wire)
      (cancelled : t.task.handlerTask = s.task.handlerTask.cancel) :
    Fails (.extended outcome judged head) t

/-- A heartbeat whose extension ends has not been cancelled. -/
theorem extending_of_looping (looping : s.Looping) {flag : Bool}
    (extending : s.task.heartbeat = .extending flag) : s.task.heartbeat = .extending false := by
  rcases looping with ⟨interval, sleeping⟩ | calm | ⟨ended, _⟩
  · cases sleeping.symm.trans extending
  · exact calm
  · cases ended.symm.trans extending

private theorem budget_congr (beat : t.task.heartbeat = .done ↔ s.task.heartbeat = .done)
    (known : t.task.knownExpiryMs = s.task.knownExpiryMs) (slept : t.slept = s.slept) :
    t.budget = s.budget := by
  simp only [budget, beat, remaining, known, slept]

private theorem fails_of_step (looping : s.Looping) (taken : s.step pb cfg e = some t)
    (failing : s.Failing pb cfg e) : s.Fails e t := by
  cases ticks_of_step taken with
  | starts head later created =>
    rcases looping with ⟨interval, sleeping⟩ | extending | ⟨ended, _⟩
    · cases sleeping.symm.trans created
    · cases extending.symm.trans created
    · cases ended.symm.trans created
  | wakes moment interval later rested sleeping =>
    refine .waits rfl (.inr (.inl rfl)) rfl (budget_congr ?_ rfl rfl)
    rw [sleeping]
    exact iff_of_false (nomatch ·) (nomatch ·)
  | renewed outcome judged head flag expiry _ _ _ granted =>
    obtain ⟨_, err, failed, _⟩ := failing
    cases failed.symm.trans granted
  | tolerated outcome judged head flag err later ended extending failed early =>
    rw [nowMillis_eq, failing.1.1] at early
    exact .tolerates outcome judged head (extending_of_looping looping extending) later ended early
      (nomatch ·) (.inl ⟨_, rfl⟩) rfl rfl rfl
  | gaveUp outcome judged head flag later ended extending lost =>
    obtain ⟨faithful, err, failed, mismatch, notFound⟩ := failing
    have late : s.task.knownExpiryMs ≤ nowMillis judged := by
      rcases judgeExtend_eq_lost_iff.mp lost with gone | gone | ⟨_, _, late⟩
      · cases failed.symm.trans gone
        exact absurd rfl mismatch
      · cases failed.symm.trans gone
        exact absurd rfl notFound
      · exact late
    rw [nowMillis_eq, faithful.1] at late
    exact .givesUp outcome judged head (extending_of_looping looping extending) late rfl rfl rfl rfl
  | crashed outcome judged head flag err later ended extending failed foreign =>
    obtain ⟨_, err', refused, _⟩ := failing
    cases refused.symm.trans failed
    contradiction
  | ctxRenewed outcome moment expiry later granted =>
    obtain ⟨_, err, failed⟩ := failing
    cases failed.symm.trans granted
  | ctxFailed => exact .waits rfl looping rfl rfl
  | other e moment task later untimed stepped =>
    have same := failing.2 task stepped
    obtain ⟨known, _⟩ := other_beat untimed stepped
    refine .waits rfl ?_ rfl (budget_congr (by rw [same]) known rfl)
    rcases looping with ⟨interval, sleeping⟩ | extending | ⟨ended, lost⟩
    · exact .inl ⟨interval, same.trans sleeping⟩
    · exact .inr (.inl (same.trans extending))
    · refine .inr (.inr ⟨same.trans ended, ?_⟩)
      rcases JobTask.leaseLost_step stepped with kept | ⟨lost', _⟩
      · exact kept.trans lost
      · exact lost'

/-- A tolerated failure takes at least a millisecond of what remained. -/
theorem budget_lt_of_tolerated {judged head : Instant} (timely : s.Timely)
    (extending : s.task.heartbeat = .extending false) (later : s.moment ≤ judged.moment)
    (ended : judged.moment ≤ head.moment) (early : judged.moment / 1000000 < s.task.knownExpiryMs)
    (goesOn : t.task.heartbeat ≠ .done) (known : t.task.knownExpiryMs = s.task.knownExpiryMs)
    (slept : t.slept = head.moment) : t.budget < s.budget := by
  have beating : s.task.heartbeat ≠ .done := by
    rw [extending]
    exact (nomatch ·)
  have rested := timely.extending false extending
  rw [budget, if_neg goesOn, budget, if_neg beating, remaining_eq, remaining_eq, known, slept]
  omega

theorem InBlock.step (floored : cfg.Floored) (block : s.InBlock wire)
    (taken : Guarded (Steps (Clocked.step pb cfg)) (Failing pb cfg) s e t) : t.InBlock wire := by
  have timely := block.timely.step floored taken.1
  cases fails_of_step block.looping taken.1 taken.2 with
  | waits _ looping same => exact ⟨timely, looping, same.trans block.wire⟩
  | tolerates _ _ _ _ _ _ _ _ looping same => exact ⟨timely, looping, same.trans block.wire⟩
  | givesUp _ _ _ _ _ ended lost same =>
    exact ⟨timely, .inr (.inr ⟨ended, lost⟩), same.trans block.wire⟩

theorem InBlock.judged (block : s.InBlock wire)
    (taken : Guarded (Steps (Clocked.step pb cfg)) (Failing pb cfg) s e t) :
    Judged wire s e t := by
  have known := block.timely.known
  rw [block.wire] at known
  rintro outcome judged head rfl
  cases fails_of_step block.looping taken.1 taken.2 with
  | waits quiet => cases quiet
  | tolerates _ _ _ _ _ _ early goesOn =>
    refine ⟨fun _ => ?_, fun ended => absurd ended goesOn⟩
    rw [known] at early
    omega
  | givesUp _ _ _ _ late ended lost _ cancelled =>
    refine ⟨fun goesOn => absurd ended goesOn, fun _ => ⟨?_, lost, cancelled⟩⟩
    rw [known] at late
    omega

/-- Every failed extension uses up some of the budget, and nothing restores it. -/
theorem countP_add_budget_le (floored : cfg.Floored) (block : s.InBlock wire) {es : List Event}
    (run : Run (Guarded (Steps (Clocked.step pb cfg)) (Failing pb cfg)) s es t) :
    es.countP Event.isExtended + t.budget ≤ s.budget := by
  have lowers {a e b} (block : InBlock wire a)
      (taken : Guarded (Steps (Clocked.step pb cfg)) (Failing pb cfg) a e b) :
      b.budget ≤ a.budget ∧ (e.isExtended = true → b.budget < a.budget) := by
    cases fails_of_step block.looping taken.1 taken.2 with
    | waits quiet _ _ same => exact ⟨same.le, fun extended => absurd extended (quiet ▸ nofun)⟩
    | tolerates _ _ _ extending later ended early goesOn _ _ known slept =>
      have less := budget_lt_of_tolerated block.timely extending later ended early goesOn known slept
      exact ⟨less.le, fun _ => less⟩
    | givesUp _ _ _ extending _ ended =>
      have less : b.budget < a.budget := by
        rw [budget, if_pos ended, budget, if_neg (extending ▸ nofun)]
        omega
      exact ⟨less.le, fun _ => less⟩
  exact run.countP_add_le (InBlock wire) budget Event.isExtended
    (fun block taken => block.step floored taken)
    (fun block taken extended => (lowers block taken).2 extended)
    (fun block taken => (lowers block taken).1) block

/-- However an extension ends, the heartbeat takes note of it. -/
theorem exists_heartbeatExtends (cfg : AutoExtend) {task : JobTask} {flag : Bool}
    (extending : task.heartbeat = .extending flag) (result : Except PyError Datetime)
    (judgedAt now : ℤ) :
    ∃ next, task.heartbeatExtends (some cfg) result judgedAt now = some next := by
  simp only [JobTask.heartbeatExtends, extending]
  cases judgeExtend task.knownExpiryMs judgedAt result <;> exact ⟨_, rfl⟩

private theorem refused_transportError (message : String) :
    Refused pb (.error (.sepp (.transportError message))) := by
  refine ⟨_, rfl, ?_, ?_⟩
  all_goals
    intro same
    contradiction

/-- A heartbeat that has not ended can go on: its sleep can end, or its extension. -/
theorem exists_beat (looping : s.Looping) (alive : s.task.heartbeat ≠ .done) :
    ∃ e t, e.Beats ∧ Guarded (Steps (Clocked.step pb cfg)) (Failing pb cfg) s e t := by
  rcases looping with ⟨interval, sleeping⟩ | extending | ⟨ended, _⟩
  · let moment := max s.moment (s.slept + interval * 1000)
    refine ⟨.wakes moment, { s with task := { s.task with heartbeat := .extending false }, moment },
      trivial, ?_, trivial, trivial⟩
    have rested : ¬ (moment < s.moment ∨ moment < s.slept + interval * 1000) := by
      rw [not_or, not_lt, not_lt]
      exact ⟨le_max_left _ _, le_max_right _ _⟩
    simp only [Steps, step, wakes, sleeping, if_neg rested, JobTask.heartbeatWakes, Option.map_some]
  · let now : Instant := ⟨s.moment, s.moment⟩
    let refused : ExtendOutcome := .error (.sepp (.transportError ""))
    have failing : s.Failing pb cfg (.extended refused now now) :=
      ⟨⟨rfl, rfl⟩, refused_transportError ""⟩
    obtain ⟨task, stepped⟩ :=
      exists_heartbeatExtends cfg extending (result pb refused) (nowMillis now) (nowMillis now)
    refine ⟨.extended refused now now, ⟨task, s.moment, s.moment, s.wire⟩, trivial, ?_, failing⟩
    simp only [Steps, step, extended, lt_irrefl, or_self, ↓reduceIte, stepped, Option.map_some, now]
    rfl
  · exact absurd ended alive

/-- While its extensions fail, the heartbeat gives up exactly when the lease has run out: after at most
as many failures as the lease had milliseconds left when the block began, every tolerated one of
them before the expiry on the wire and the last one at most a millisecond earlier than that. -/
theorem gives_up_within_lease (pb : Protobuf) (defaultWorkerId : String) (args : WorkerArgs)
    (worker : Worker) (cfg : AutoExtend) (made : Worker.init defaultWorkerId args = .ok worker)
    (on : worker.autoExtend = some cfg) (j : Pb.Job) (workerId : Option String) (job : Job)
    (decoded : jobFromPb pb j workerId = .ok job) (moment : ℤ) (past : List Event) (s : Clocked)
    (reached : Run (Guarded (Steps (step pb cfg)) fun _ e => e.Faithful) (reserved j job moment)
      past s)
    (interval : Timedelta) (head : s.task.heartbeat = .sleeping interval false) (es : List Event)
    (t : Clocked) (block : Run (Guarded (Steps (step pb cfg)) (Failing pb cfg)) s es t) :
    es.countP Event.isExtended ≤ max 1 s.remaining ∧
      Run (Ensuring (Guarded (Steps (step pb cfg)) (Failing pb cfg)) (Judged s.wire)) s es t ∧
      (t.task.heartbeat = .done → t.task.leaseLost = true) ∧
      (t.task.heartbeat ≠ .done → es.countP Event.isExtended < max 1 s.remaining ∧
        ∃ e next, e.Beats ∧ Guarded (Steps (step pb cfg)) (Failing pb cfg) t e next) := by
  have floored := Worker.floored_of_init made on
  have timely : s.Timely := reached.invariant Timely
    (fun timely taken => timely.step floored taken.1) (timely_reserved decoded moment)
  have start : InBlock s.wire s := ⟨timely, .inl ⟨interval, head⟩, rfl⟩
  have final : InBlock s.wire t := block.invariant (InBlock s.wire)
    (fun block taken => block.step floored taken) start
  have spent := countP_add_budget_le floored start block
  rw [show s.budget = (max 1 s.remaining).toNat from if_neg (head ▸ nofun)] at spent
  refine ⟨by omega, ?_, fun ended => ?_, fun alive => ⟨?_, exists_beat final.looping alive⟩⟩
  · exact block.ensure (InBlock s.wire) (fun block taken => block.step floored taken)
      (fun block taken => block.judged taken) start
  · rcases final.looping with ⟨_, sleeping⟩ | extending | ⟨_, lost⟩
    · cases ended.symm.trans sleeping
    · cases ended.symm.trans extending
    · exact lost
  · rw [show t.budget = (max 1 t.remaining).toNat from if_neg alive] at spent
    omega

/-- A worker that extends its leases every ten seconds. -/
def beatingArgs : WorkerArgs := { Worker.soleArgs with autoExtendInterval := some 10000000 }

/-- What the constructor makes of it. -/
def beating : AutoExtend := ⟨some 10000000, 30000000⟩

private theorem dozing_reached : Run (Guarded (Steps (step .checked beating)) fun _ e => e.Faithful)
    (reserved leasedMessage leasedJob 0)
    [.other (.start JobTask.catchAllOnly .awaitable) 0, .starts ⟨0, 0⟩] dozing :=
  .cons ⟨rfl, trivial⟩ (.cons ⟨rfl, rfl⟩ (.nil dozing))

/-- A lease of thirty seconds: the first extension fails in the eleventh and is tolerated, a call of
the handler fails as well, and the second extension fails only after the lease has ended. -/
def lateFailure : List Event :=
  let refused : ExtendOutcome := .error (.sepp (.transportError ""))
  [.wakes 10000000000, .extended refused ⟨11000000000, 11000000000⟩ ⟨11000000000, 11000000000⟩,
    .ctxExtended refused 15000000000, .wakes 21000000000,
    .extended refused ⟨31000000000, 31000000000⟩ ⟨31000000000, 31000000000⟩]

/-- The failures of such a block: the tolerated one is judged before the expiry, and the one after it is
the last. -/
theorem gives_up_within_lease_late :
    ∃ t, Run (Ensuring (Guarded (Steps (step .checked beating)) (Failing .checked beating))
        (Judged 30000000000)) dozing lateFailure t ∧
      lateFailure.countP Event.isExtended = 2 ∧ t.task.leaseLost = true := by
  have block : Run (Guarded (Steps (step .checked beating)) (Failing .checked beating)) dozing
      lateFailure _ :=
    .cons ⟨rfl, trivial, trivial⟩
      (.cons ⟨rfl, ⟨rfl, rfl⟩, refused_transportError ""⟩
        (.cons ⟨rfl, trivial, _, rfl⟩
          (.cons ⟨rfl, trivial, trivial⟩
            (.cons ⟨rfl, ⟨rfl, rfl⟩, refused_transportError ""⟩ (.nil _)))))
  have made : Worker.init "worker" beatingArgs =
      .ok { Worker.sole with autoExtend := some beating } := rfl
  obtain ⟨_, judged, lost, _⟩ := gives_up_within_lease .checked "worker" beatingArgs _ beating made
    rfl leasedMessage none leasedJob rfl 0 _ dozing dozing_reached 10000000 rfl _ _ block
  exact ⟨_, judged, rfl, lost rfl⟩

end Clocked

end SeppPy
