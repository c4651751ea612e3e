import SeppPy.Worker.Races

/-! # The reserve calls of a run

A reserve call is started when `_or_shutdown(sem.acquire())` returns a permit, and only then. It
asks for no more jobs than there are permits for, so that a batch of that size is spawned without
waiting. Once shutdown is signalled the loop starts no new race for a permit, but it still sends a
reserve call if the race it is in is won by its `acquire`.
-/

namespace SeppPy

namespace Loop

open Machine

variable {worker : Worker} {eagerGather : Bool} {initial : ℤ} {monotonic : ℤ} {w w' : Loop}

/-! ## Reserve calls after shutdown -/

def isReserve : Awaitable → Bool
  | .reserve _ _ => true
  | _ => false

/-- The number of `client.reserve` calls that were started. -/
def reserveCalls (w : Loop) : ℕ := (w.races.map Race.awaitable).countP isReserve

/-- The number of races for a permit that are being run: one or none. -/
def acquiring (w : Loop) : ℕ := (w.current.map Race.awaitable).count .acquire

/-- `run()` resumes with the permit it was waiting for. -/
def TakesPermit (w : Loop) (e : Event) : Prop := e.isResume = true ∧ w.AcquireWins

theorem reserveCalls_eq (w : Loop) : w.reserveCalls =
    (w.past.map Race.awaitable).countP isReserve + (w.current.map Race.awaitable).countP isReserve := by
  rw [reserveCalls, races, List.map_append, List.countP_append]

/-- Only `run()` itself ends or starts a race. -/
theorem awaitables_of_other {e : Event} (taken : w.step worker eagerGather e = some w')
    (other : e.isResume = false) :
    w'.past = w.past ∧ w'.current.map Race.awaitable = w.current.map Race.awaitable := by
  cases moves_of_step taken with
  | shutdown | register | job | taskDone => exact ⟨rfl, rfl⟩
  | cancel =>
    cases at_pc : w.pc with
    | race r stage => simp [cancel, current, at_pc]
    | _ => simp [cancel, current, at_pc]
  | child moved =>
    have moves := moved.raceMoves
    obtain ⟨r, r', stage, at_pc, at_pc', advances⟩ := moves.races
    refine ⟨moves.past, ?_⟩
    simp only [current, at_pc, at_pc', List.map_cons, List.map_nil, advances.awaitable]
  | resume => cases other

/-- A step that does not win a permit starts no reserve call. -/
theorem reserveCalls_still {e : Event} (taken : w.step worker eagerGather e = some w')
    (without : ¬ w.TakesPermit e) : w'.reserveCalls = w.reserveCalls := by
  cases resumed : e.isResume with
  | false =>
    obtain ⟨past, awaitables⟩ := awaitables_of_other taken resumed
    rw [reserveCalls_eq, reserveCalls_eq, past, awaitables]
  | true =>
    cases e with
    | resume monotonic =>
      have lost : ¬ w.AcquireWins := fun wins => without ⟨rfl, wins⟩
      cases turns_of_resumes (resumes_of_resume taken) with
      | stays at_pc at_pc' past =>
        rw [reserveCalls_eq, reserveCalls_eq, past]
        simp only [current, at_pc, at_pc', List.map_cons, List.map_nil, Race.awaitable_cancelAt]
      | @opens awaitable at_pc' closed why =>
        rw [reserveCalls_eq, closed, reserveCalls]
        cases awaitable with
        | reserve opts started => exact absurd why.1 lost
        | acquire | sleep => simp [current, at_pc', startRace, isReserve]
      | batches at_pc' closed =>
        rw [reserveCalls_eq, closed]
        simp [current, at_pc', reserveCalls]
      | leaves out off closed =>
        rw [reserveCalls_eq, closed]
        simp [out, reserveCalls]
    | _ => cases resumed

/-- With the permit it has won the loop starts a reserve call. -/
theorem reserves_of_takesPermit {e : Event} (taken : w.step worker eagerGather e = some w')
    (takes : w.TakesPermit e) :
    w'.reserveCalls = w.reserveCalls + 1 ∧ w.acquiring = 1 ∧ w'.acquiring = 0 := by
  obtain ⟨resumed, calm, r, stage, value, at_pc, awaitable, ended, signalled, here⟩ := takes
  cases e with
  | resume monotonic =>
    obtain ⟨opts, _, built, _⟩ := worker.exists_reserveOptsWithCapacity w.inFlight
    have next : w.step worker eagerGather (.resume monotonic) =
        some { w.closeRace r with pc := startRace (.reserve opts monotonic) } := by
      rcases here with rfl | rfl <;>
        simp [step, resume, at_pc, resumeRace, calm, ended, signalled, onResult, awaitable, closeRace,
          built]
    obtain rfl := Option.some.inj (next.symm.trans taken)
    refine ⟨?_, ?_, ?_⟩
    · simp [reserveCalls_eq, closeRace, current, at_pc, startRace, isReserve, awaitable]
    · simp [acquiring, current, at_pc, awaitable]
    · simp [acquiring, current, startRace]
  | _ => cases resumed

private theorem shutdown_raiseInBody (err : PyError) :
    (w.raiseInBody eagerGather err).shutdown = w.shutdown := by
  unfold raiseInBody
  split <;> rfl

private theorem shutdown_onResult (awaitable : Awaitable)
    (result : Except PyError (Option (List Job))) :
    (w.onResult worker eagerGather monotonic awaitable result).shutdown = w.shutdown := by
  unfold onResult
  split
  · unfold onReserved
    split
    · rfl
    · exact shutdown_raiseInBody _
    · rfl
    · rfl
    · exact shutdown_raiseInBody _
  · exact shutdown_raiseInBody _
  · split
    · rfl
    · exact shutdown_raiseInBody _
  · rfl

/-- The signal stays given. -/
theorem shutdown_step {e : Event} (taken : w.step worker eagerGather e = some w')
    (signalled : w.shutdown = true) : w'.shutdown = true := by
  cases moves_of_step taken with
  | shutdown => rfl
  | register | job | taskDone => exact signalled
  | cancel =>
    unfold cancel
    split <;> exact signalled
  | child moved => cases moved <;> exact signalled
  | resume monotonic resumed =>
    cases resumed with
    | starts | neverStarts | reaped | drained | drainRaises | batchSpawns => exact signalled
    | @races r _ _ _ resumed =>
      cases resumed with
      | cancelled | shutdownWins | taskWins => exact signalled
      | result => exact (shutdown_onResult (w := w.closeRace r) _ _).trans signalled
      | shutdown =>
        cases r.awaitable <;> exact signalled
      | raises => exact (shutdown_raiseInBody (w := w.closeRace r) _).trans signalled
    | batchRaises => exact (shutdown_raiseInBody _).trans signalled

/-- Once shutdown is signalled the loop starts no race for a permit. -/
theorem acquiring_le {e : Event} (taken : w.step worker eagerGather e = some w')
    (signalled : w.shutdown = true) : w'.acquiring ≤ w.acquiring := by
  cases resumed : e.isResume with
  | false =>
    obtain ⟨_, awaitables⟩ := awaitables_of_other taken resumed
    rw [acquiring, acquiring, awaitables]
  | true =>
    cases e with
    | resume monotonic =>
      cases turns_of_resumes (resumes_of_resume taken) with
      | stays at_pc at_pc' => simp [acquiring, current, at_pc, at_pc']
      | @opens awaitable at_pc' closed why =>
        cases awaitable with
        | acquire => exact absurd (signalled.symm.trans why) Bool.noConfusion
        | reserve | sleep => simp [acquiring, current, at_pc', startRace]
      | batches at_pc' => simp [acquiring, current, at_pc']
      | leaves out => simp [acquiring, out]
    | _ => cases resumed

/-- After the signal the loop can still win the race for a permit it is in, but no other. -/
theorem reserveCalls_add_acquiring {e : Event} (taken : w.step worker eagerGather e = some w')
    (signalled : w.shutdown = true) :
    w'.reserveCalls + w'.acquiring ≤ w.reserveCalls + w.acquiring := by
  by_cases takes : w.TakesPermit e
  · obtain ⟨more, before, after⟩ := reserves_of_takesPermit taken takes
    omega
  · rw [reserveCalls_still taken takes]
    exact Nat.add_le_add_left (acquiring_le taken signalled) _

/-- From any state in which shutdown is signalled, at most one more reserve call is started, that of
a race for a permit which is already being run; and none is started exactly if `run()` does not
resume with the permit of that race. -/
theorem shutdown_stops_reserves_iff (worker : Worker) (eagerGather : Bool) (es : List Event)
    (w w' : Loop) (signalled : w.shutdown = true)
    (run : Run (Steps (step worker eagerGather)) w es w') :
    w'.reserveCalls ≤ w.reserveCalls + w.acquiring ∧
      (w'.reserveCalls = w.reserveCalls ↔
        Run (Guarded (Steps (step worker eagerGather)) fun w e => ¬ w.TakesPermit e) w es w') := by
  constructor
  · have bounded := run.invariant
      (fun v => v.shutdown = true ∧ v.reserveCalls + v.acquiring ≤ w.reserveCalls + w.acquiring)
      (fun before taken => ⟨shutdown_step taken before.1,
        (reserveCalls_add_acquiring taken before.1).trans before.2⟩) ⟨signalled, le_rfl⟩
    omega
  · refine run.counter_eq_iff reserveCalls reserveCalls_still fun taken forbidden => ?_
    have more := (reserves_of_takesPermit taken (not_not.mp forbidden)).1
    omega

/-- The loop starts no reserve call after the signal. -/
def StopsReserving (worker : Worker) (eagerGather : Bool) (registry : Registry) (initial : ℤ) :
    Prop :=
  ∀ es w es' w', Run (Steps (step worker eagerGather)) (init worker registry initial) es w →
    w.shutdown = true → Run (Steps (step worker eagerGather)) w es' w' →
      w'.reserveCalls = w.reserveCalls

/-- The signal comes between the completion of the `acquire` and the resumption of `run()`. -/
def signalledLate : List Event := [.resume 0, .waitEnds, .shutdown]

/-- `_or_shutdown` lets the completed `acquire` win, and the loop sends a reserve call. -/
theorem reserves_after_shutdown : ¬ StopsReserving .sole true {} 0 := by
  intro stops
  obtain ⟨w, found, signalled, none⟩ : ∃ w, run? (step .sole true) (init .sole {} 0)
      signalledLate = some w ∧ w.shutdown = true ∧ w.reserveCalls = 0 := ⟨_, rfl, rfl, rfl⟩
  obtain ⟨w', found', one⟩ : ∃ w', ((run? (step .sole true) (init .sole {} 0) signalledLate).bind
      fun w => run? (step .sole true) w [.shutdownWaitEnds, .resume 0]) = some w' ∧
      w'.reserveCalls = 1 := ⟨_, rfl, rfl⟩
  rw [found, Option.bind_some] at found'
  have same := stops _ w _ w' ((run?_eq_some_iff _ _ _ _).mp found) signalled
    ((run?_eq_some_iff _ _ _ _).mp found')
  rw [none, one] at same
  contradiction

/-- The signal comes before the `acquire` completes, and `run()` resumes before it does. -/
theorem shutdown_stops_reserves_iff_early :
    ∃ w w', Run (Steps (step .sole true)) (init .sole {} 0) [.resume 0, .shutdown] w ∧
      w'.pc = .returned ∧
      Run (Guarded (Steps (step .sole true)) fun w e => ¬ w.TakesPermit e) w
        [.shutdownWaitEnds, .resume 0, .waitEnds, .resume 0] w' := by
  obtain ⟨w, found, signalled, none⟩ : ∃ w, run? (step .sole true) (init .sole {} 0)
      [.resume 0, .shutdown] = some w ∧ w.shutdown = true ∧ w.reserveCalls = 0 := ⟨_, rfl, rfl, rfl⟩
  obtain ⟨w', found', returned, none'⟩ : ∃ w', ((run? (step .sole true) (init .sole {} 0)
      [.resume 0, .shutdown]).bind fun w =>
        run? (step .sole true) w [.shutdownWaitEnds, .resume 0, .waitEnds, .resume 0]) = some w' ∧
      w'.pc = .returned ∧ w'.reserveCalls = 0 := ⟨_, rfl, rfl, rfl⟩
  rw [found, Option.bind_some] at found'
  have run := (run?_eq_some_iff _ _ _ _).mp found
  have run' := (run?_eq_some_iff _ _ _ _).mp found'
  exact ⟨w, w', run, returned,
    (shutdown_stops_reserves_iff .sole true _ w w' signalled run').2.mp (none'.trans none.symm)⟩

/-! ## The size of a reserve call -/

/-- A reserve call asks for at least one job, for no more than there are permits left and for no
more than the worker is configured to. -/
def AsksAt (worker : Worker) (free : ℕ) : Pc → Prop
  | .race r _ => ∀ opts started, r.awaitable = .reserve opts started →
      ∃ m : ℤ, opts.maxJobs = some m ∧ 1 ≤ m ∧ m ≤ free + 1 ∧ ∀ n ∈ worker.opts.maxJobs, m ≤ n
  | _ => True

/-- The batch that a reserve call brings fits the permits, as long as it is no larger than was asked
for. -/
def FitsAt (free : ℕ) : Pc → Prop
  | .race r _ => ∀ opts started m jobs, r.awaitable = .reserve opts started →
      opts.maxJobs = some m → r.task = .done (.ok (some jobs)) → (jobs.length : ℤ) ≤ m
  | .batch rest => rest.length ≤ free
  | _ => True

/-- The server returns no more jobs than the reserve call asked for. -/
def Compliant (w : Loop) (e : Event) : Prop :=
  ∀ jobs r stage opts started m, e = .reserveEnds (.ok (some jobs)) → w.pc = .race r stage →
    r.awaitable = .reserve opts started → opts.maxJobs = some m → (jobs.length : ℤ) ≤ m

private theorem compliant_of_other {e : Event}
    (other : ∀ result, e ≠ .reserveEnds result) : Compliant w e :=
  fun _ _ _ _ _ _ ends => absurd ends (other _)

/-- Only `run()` itself starts a reserve call; while it is being waited for, permits only come
back. -/
theorem reserve_of_other {e : Event} (taken : w.step worker eagerGather e = some w')
    (other : e.isResume = false) {r' : Race} {stage' : Stage} (at_pc' : w'.pc = .race r' stage')
    {opts : ReserveOptions} {started : ℤ} (awaitable : r'.awaitable = .reserve opts started) :
    ∃ r stage, w.pc = .race r stage ∧ r.awaitable = .reserve opts started ∧ w.free ≤ w'.free ∧
      ∀ result, r'.task = .done result → r.task = .done result ∨ e = .reserveEnds result := by
  cases moves_of_step taken with
  | shutdown | register | job =>
    exact ⟨r', stage', at_pc', awaitable, le_rfl, fun _ => .inl⟩
  | taskDone => exact ⟨r', stage', at_pc', awaitable, Nat.le_succ _, fun _ => .inl⟩
  | cancel =>
    cases at_pc : w.pc with
    | race r stage =>
      simp only [cancel, at_pc, Pc.race.injEq] at at_pc'
      obtain ⟨rfl, rfl⟩ := at_pc'
      refine ⟨r, stage, rfl, (Race.awaitable_cancelAt r stage).symm.trans awaitable, ?_,
        fun result ended => .inl (Race.task_of_cancelAt ended)⟩
      simp only [cancel, at_pc, le_refl]
    | _ => simp [cancel, at_pc] at at_pc'
  | child moved =>
    cases moved with
    | acquires _ acquire =>
      obtain ⟨rfl, rfl⟩ := Pc.race.inj at_pc'
      cases acquire.symm.trans awaitable
    | cancelled _ no_reserve | sleeps _ no_reserve =>
      obtain ⟨rfl, rfl⟩ := Pc.race.inj at_pc'
      exact absurd awaitable (no_reserve opts started)
    | reserves result at_pc reserves =>
      obtain ⟨rfl, rfl⟩ := Pc.race.inj at_pc'
      refine ⟨_, _, at_pc, awaitable, le_rfl, fun result' ended => .inr ?_⟩
      rw [RaceTask.done.inj ended]
    | signalled at_pc =>
      obtain ⟨rfl, rfl⟩ := Pc.race.inj at_pc'
      exact ⟨_, _, at_pc, awaitable, le_rfl, fun _ => .inl⟩
  | resume => cases other

theorem AsksAt.mono {free free' : ℕ} {pc : Pc} (asks : AsksAt worker free pc) (more : free ≤ free') :
    AsksAt worker free' pc := by
  cases pc with
  | race r stage =>
    intro opts started awaitable
    obtain ⟨m, found, positive, room, configured⟩ := asks opts started awaitable
    exact ⟨m, found, positive, by omega, configured⟩
  | _ => trivial

theorem FitsAt.mono {free free' : ℕ} {pc : Pc} (fits : FitsAt free pc) (more : free ≤ free') :
    FitsAt free' pc := by
  cases pc with
  | batch rest => exact le_trans fits more
  | _ => exact fits

/-- A reserve call is built with the permit that its race holds in hand. -/
theorem asksAt_opens {awaitable : Awaitable} (permits : Permits worker 0 w)
    (why : Opens worker monotonic w awaitable) : AsksAt worker w.free (startRace awaitable) := by
  intro opts started found
  obtain rfl : awaitable = .reserve opts started := found
  obtain ⟨⟨_, r, stage, value, at_pc, acquire, ended, _⟩, _, built⟩ := why
  obtain ⟨opts', m, built', found, positive, room, configured⟩ :=
    worker.exists_reserveOptsWithCapacity w.inFlight
  obtain rfl := Except.ok.inj (built.symm.trans built')
  refine ⟨m, found, positive, room.trans ?_, configured⟩
  have held : w.held = true := by
    have holds := permits.holds
    rw [at_pc] at holds
    simp only [HoldsAt, acquire, ended] at holds
    simp_all
  have balance := permits.balance
  simp only [held, ↓reduceIte, add_zero] at balance
  omega

/-- While a batch is being spawned only `run()` takes permits. -/
theorem batch_of_other {e : Event} (taken : w.step worker eagerGather e = some w')
    (other : e.isResume = false) {rest : List Job} (at_pc' : w'.pc = .batch rest) :
    w.pc = .batch rest ∧ w.free ≤ w'.free := by
  cases moves_of_step taken with
  | shutdown | register | job => exact ⟨at_pc', le_rfl⟩
  | taskDone => exact ⟨at_pc', Nat.le_succ _⟩
  | cancel =>
    cases at_pc : w.pc with
    | batch rest' =>
      simp only [cancel, at_pc, Pc.batch.injEq] at at_pc'
      simp [cancel, at_pc, at_pc']
    | _ => simp [cancel, at_pc] at at_pc'
  | child moved => cases moved <;> cases at_pc'
  | resume => cases other

/-- Every step keeps the account of what is asked for. -/
theorem asksAt_step {e : Event} (permits : Permits worker 0 w) (asks : AsksAt worker w.free w.pc)
    (taken : w.step worker eagerGather e = some w') : AsksAt worker w'.free w'.pc := by
  cases at_pc' : w'.pc with
  | race r' stage' =>
    intro opts started awaitable
    cases resumed : e.isResume with
    | false =>
      obtain ⟨r, stage, at_pc, reserves, free, _⟩ :=
        reserve_of_other taken resumed at_pc' awaitable
      rw [at_pc] at asks
      exact asks.mono free opts started reserves
    | true =>
      cases e with
      | resume monotonic =>
        cases turns_of_resumes (resumes_of_resume taken) with
        | @stays r stage stage'' at_pc at_race past free =>
          obtain ⟨rfl, rfl⟩ := Pc.race.inj (at_race.symm.trans at_pc')
          rw [at_pc] at asks
          rw [free]
          exact asks opts started ((Race.awaitable_cancelAt r stage'').symm.trans awaitable)
        | opens at_race closed why free =>
          obtain ⟨rfl, rfl⟩ := Pc.race.inj (at_race.symm.trans at_pc')
          rw [free opts started awaitable]
          exact asksAt_opens permits why opts started awaitable
        | batches at_batch =>
          rw [at_pc'] at at_batch
          contradiction
        | leaves out => simp [current, at_pc'] at out
      | _ => cases resumed
  | _ => trivial

/-- A batch that a reserve call brings fits as long as the server keeps to what was asked for. -/
theorem fitsAt_of_other {e : Event} (fits : FitsAt w.free w.pc) (compliant : Compliant w e)
    (taken : w.step worker eagerGather e = some w') (other : e.isResume = false) :
    FitsAt w'.free w'.pc := by
  cases at_pc' : w'.pc with
  | race r' stage' =>
    intro opts started m jobs awaitable asked ended
    obtain ⟨r, stage, at_pc, reserves, _, results⟩ :=
      reserve_of_other taken other at_pc' awaitable
    rcases results _ ended with already | rfl
    · rw [at_pc] at fits
      exact fits opts started m jobs reserves asked already
    · exact compliant jobs r stage opts started m rfl at_pc reserves asked
  | batch rest =>
    obtain ⟨at_pc, free⟩ := batch_of_other taken other at_pc'
    rw [at_pc] at fits
    exact le_trans fits free
  | _ => trivial

/-- The first job of a batch goes to the permit in hand, and each of the others to a free one. -/
theorem fitsAt_resume (asks : AsksAt worker w.free w.pc) (fits : FitsAt w.free w.pc)
    (resumed : Resumes worker eagerGather monotonic w w') : FitsAt w'.free w'.pc := by
  cases turns_of_resumes resumed with
  | @stays r stage stage' at_pc at_pc' past free =>
    rw [at_pc] at fits
    rw [at_pc']
    intro opts started m jobs awaitable asked ended
    exact fits opts started m jobs ((Race.awaitable_cancelAt r stage').symm.trans awaitable) asked
      (Race.task_of_cancelAt ended)
  | opens at_pc' =>
    rw [at_pc']
    intro opts started m jobs _ _ ended
    contradiction
  | @batches rest at_pc' closed calm why =>
    rw [at_pc']
    rcases why with ⟨job, ⟨r, stage, opts, started, at_pc, awaitable, ended⟩, free⟩ | ⟨job, at_pc, free⟩
    · rw [at_pc] at asks fits
      obtain ⟨m, asked, _, room, _⟩ := asks opts started awaitable
      have size := fits opts started m (job :: rest) awaitable asked ended
      simp only [List.length_cons, Nat.cast_add, Nat.cast_one] at size
      simp only [FitsAt, free]
      omega
    · rw [at_pc] at fits
      simp only [FitsAt, List.length_cons] at fits ⊢
      omega
  | leaves out off =>
    cases at_pc' : w'.pc with
    | race => simp [current, at_pc'] at out
    | batch rest => exact absurd at_pc' (off rest)
    | _ => trivial

private theorem fitsAt_step {e : Event} (asks : AsksAt worker w.free w.pc)
    (fits : FitsAt w.free w.pc)
    (compliant : Compliant w e) (taken : w.step worker eagerGather e = some w') :
    FitsAt w'.free w'.pc := by
  cases resumed : e.isResume with
  | false => exact fitsAt_of_other fits compliant taken resumed
  | true =>
    cases e with
    | resume monotonic => exact fitsAt_resume asks fits (resumes_of_resume taken)
    | _ => cases resumed

/-- A cancellation does not let `run()` take up a batch. -/
theorem calm_of_batch {rest : List Job}
    (taken : w.step worker eagerGather (.resume monotonic) = some w') (at_pc' : w'.pc = .batch rest) :
    w'.mustCancel = false := by
  cases turns_of_resumes (resumes_of_resume taken) with
  | batches _ _ calm => exact calm
  | stays _ at_race | opens at_race => cases at_race.symm.trans at_pc'
  | leaves _ off => exact absurd at_pc' (off rest)

/-- With a free permit for each of its jobs a batch is spawned without waiting. -/
theorem spawns_batch {rest : List Job} (at_pc : rest ≠ [] → w.pc = .batch rest)
    (fits : rest.length ≤ w.free) (calm : w.mustCancel = false) :
    ∃ w', Run (Steps (step worker eagerGather)) w (List.replicate rest.length (.resume monotonic)) w' ∧
      spawnedJobs w'.slots = spawnedJobs w.slots ++ rest := by
  induction rest generalizing w with
  | nil => exact ⟨w, .nil w, (List.append_nil _).symm⟩
  | cons job rest ih =>
    let next := { w with free := w.free - 1 }.spawn job
    have available : w.free ≠ 0 := by
      simp only [List.length_cons] at fits
      omega
    have taken : step worker eagerGather w (.resume monotonic) =
        some { next with pc := next.nextJob eagerGather rest } := by
      simp [step, resume, at_pc, resumeBatch, calm, available, next]
    have at_next : rest ≠ [] → next.nextJob eagerGather rest = .batch rest := by
      intro more
      unfold nextJob
      split
      · exact absurd rfl more
      · rfl
    have fits' : rest.length ≤ w.free - 1 := by
      simp only [List.length_cons] at fits
      omega
    obtain ⟨w', run, spawned⟩ := ih (w := { next with pc := next.nextJob eagerGather rest })
      at_next fits' calm
    refine ⟨w', .cons taken run, spawned.trans ?_⟩
    simp only [next, spawn, spawnedJobs_spawn, List.append_assoc, List.singleton_append]

/-- The account of permits and of what is asked for, over a run. -/
theorem asksAt_of_run {registry : Registry} {es : List Event}
    (run : Run (Steps (step worker eagerGather)) (init worker registry 0) es w) :
    Permits worker 0 w ∧ AsksAt worker w.free w.pc := by
  refine run.invariant (fun w => Permits worker 0 w ∧ AsksAt worker w.free w.pc) ?_
    ⟨.start worker registry 0, trivial⟩
  intro v e v' account taken
  obtain ⟨permits, asks⟩ := account
  exact ⟨permits.step taken, asksAt_step permits asks taken⟩

private theorem fitsAt_of_run {registry : Registry} {es : List Event}
    (run : Run (Guarded (Steps (step worker eagerGather)) Compliant) (init worker registry 0) es w) :
    FitsAt w.free w.pc := by
  have both : (Permits worker 0 w ∧ AsksAt worker w.free w.pc) ∧ FitsAt w.free w.pc := by
    refine run.invariant
      (fun w => (Permits worker 0 w ∧ AsksAt worker w.free w.pc) ∧ FitsAt w.free w.pc) ?_
      ⟨⟨.start worker registry 0, trivial⟩, trivial⟩
    intro v e v' account taken
    obtain ⟨⟨permits, asks⟩, fits⟩ := account
    exact ⟨⟨permits.step taken.1, asksAt_step permits asks taken.1⟩,
      fitsAt_step asks fits taken.2 taken.1⟩
  exact both.2

/-- Each reserve call of a single run asks for at least one job, for no more than `max_in_flight`
leaves room for and for no more than the configured `max_jobs`; its options are always valid. If the
server returns no more than that, there is a free permit for every job of a batch, so that the whole
batch is spawned without waiting. -/
theorem reserves_within_capacity (defaultWorkerId : String) (args : WorkerArgs) (worker : Worker)
    (made : Worker.init defaultWorkerId args = .ok worker) (eagerGather : Bool)
    (registry : Registry) (es : List Event) (w : Loop)
    (run : Run (Steps (step worker eagerGather)) (init worker registry 0) es w) :
    (∃ opts, worker.reserveOptsWithCapacity w.inFlight = .ok opts) ∧
    (∀ r stage opts started, w.pc = .race r stage → r.awaitable = .reserve opts started →
      ∃ m, opts.maxJobs = some m ∧ 1 ≤ m ∧ m ≤ max 1 args.maxInFlight - w.inFlight ∧
        ∀ n ∈ args.maxJobs, m ≤ n) ∧
    (Run (Guarded (Steps (step worker eagerGather)) Compliant) (init worker registry 0) es w →
      (∀ rest, w.pc = .batch rest → rest.length ≤ w.free) ∧
      ∀ monotonic next rest, w.step worker eagerGather (.resume monotonic) = some next →
        next.pc = .batch rest → ∀ monotonic', ∃ w',
          Run (Steps (step worker eagerGather)) next
            (List.replicate rest.length (.resume monotonic')) w' ∧
          spawnedJobs w'.slots = spawnedJobs next.slots ++ rest) := by
  obtain ⟨permits, asks⟩ := asksAt_of_run run
  refine ⟨?_, ?_, fun compliant => ⟨?_, ?_⟩⟩
  · obtain ⟨opts, _, built, _⟩ := worker.exists_reserveOptsWithCapacity w.inFlight
    exact ⟨opts, built⟩
  · intro r stage opts started at_pc awaitable
    rw [at_pc] at asks
    obtain ⟨m, found, positive, room, configured⟩ := asks opts started awaitable
    refine ⟨m, found, positive, ?_, Worker.maxJobs_of_init made ▸ configured⟩
    have balance := permits.balance
    have holds := permits.holds
    rw [at_pc] at holds
    have held : w.held = true := by simpa only [HoldsAt, awaitable] using holds
    simp only [Worker.maxInFlight_of_init made, held, ↓reduceIte, add_zero] at balance
    omega
  · intro rest at_pc
    have fits := fitsAt_of_run compliant
    rwa [at_pc] at fits
  · intro monotonic next rest taken at_pc' monotonic'
    have fits := fitsAt_resume asks (fitsAt_of_run compliant) (resumes_of_resume taken)
    rw [at_pc'] at fits
    exact spawns_batch (fun _ => at_pc') fits (calm_of_batch taken at_pc')

/-- Up to its first reserve call a worker with two permits asks for two jobs. -/
def asksForTwo : List Event := [.resume 0, .waitEnds, .resume 0, .shutdownWaitEnds, .resume 0]

/-- The first of two jobs is taken up, and the second spawned without waiting. -/
theorem reserves_within_capacity_pair :
    let jobs := [JobTask.emailJob, JobTask.emailJob]
    ∃ next w', Run (Steps (step .pair true)) (init .pair {} 0)
        (asksForTwo ++ [.reserveEnds (.ok (some jobs)), .resume 0, .shutdownWaitEnds, .resume 0]) next ∧
      next.pc = .batch [JobTask.emailJob] ∧ Run (Steps (step .pair true)) next [.resume 0] w' ∧
      spawnedJobs w'.slots = jobs := by
  intro jobs
  obtain ⟨mid, before, two⟩ : ∃ mid, run? (step .pair true) (init .pair {} 0) asksForTwo = some mid ∧
      Compliant mid (.reserveEnds (.ok (some jobs))) := by
    refine ⟨_, rfl, ?_⟩
    rintro _ _ _ _ _ _ ⟨⟩ ⟨⟩ ⟨⟩ ⟨⟩
    decide
  obtain ⟨answered, w, next, answer, after, taken, at_pc, one⟩ : ∃ answered w next,
      ((run? (step .pair true) (init .pair {} 0) asksForTwo).bind fun mid =>
        step .pair true mid (.reserveEnds (.ok (some jobs)))) = some answered ∧
      run? (step .pair true) answered [.resume 0, .shutdownWaitEnds] = some w ∧
      w.step .pair true (.resume 0) = some next ∧ next.pc = .batch [JobTask.emailJob] ∧
      spawnedJobs next.slots = [JobTask.emailJob] := ⟨_, _, _, rfl, rfl, rfl, rfl, rfl⟩
  rw [before, Option.bind_some] at answer
  have quiet (a : Loop) (e : Event) (member : e ∈ asksForTwo) : Compliant a e := by
    simp only [asksForTwo, List.mem_cons, List.not_mem_nil, or_false] at member
    rcases member with rfl | rfl | rfl | rfl | rfl <;> exact compliant_of_other nofun
  have later (a : Loop) (e : Event) (member : e ∈ [.resume 0, .shutdownWaitEnds]) :
      Compliant a e := by
    refine quiet a e ?_
    simp only [asksForTwo, List.mem_cons, List.not_mem_nil, or_false] at member ⊢
    tauto
  have run : Run (Guarded (Steps (step .pair true)) Compliant) (init .pair {} 0)
      (asksForTwo ++ [.reserveEnds (.ok (some jobs)), .resume 0, .shutdownWaitEnds]) w :=
    (((run?_eq_some_iff _ _ _ _).mp before).guard quiet).append
      (.cons ⟨answer, two⟩ (((run?_eq_some_iff _ _ _ _).mp after).guard later))
  obtain ⟨_, _, spawns⟩ :=
    reserves_within_capacity "worker" Worker.pairArgs .pair rfl true {} _ w run.unguarded
  obtain ⟨w', run', spawned⟩ := (spawns run).2 0 next _ taken at_pc 0
  refine ⟨next, w', ?_, at_pc, run', spawned.trans (by rw [one]; rfl)⟩
  rw [show asksForTwo ++ [.reserveEnds (.ok (some jobs)), .resume 0, .shutdownWaitEnds, .resume 0] =
    (asksForTwo ++ [.reserveEnds (.ok (some jobs)), .resume 0, .shutdownWaitEnds]) ++ [.resume 0] from
      rfl]
  exact run.unguarded.snoc taken

end Loop

end SeppPy
