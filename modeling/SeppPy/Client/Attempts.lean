import SeppPy.Client.Retry

/-! # When the retry loop stops

`retryActions` lists the calls and the sleeps of the retry loop in the order they happen. The loop
stops at the first call that ends for good, or else at the last that the policy allows, and until
then it sleeps once between each two calls. It gets there as long as `timedelta` can hold each
backoff that it grows; after the first that it cannot, the error of `timedelta` takes the place of
the RPC's. Over doubles that depends on how the maximum is rounded and on products with an infinity
too, and a policy that is not negative and keeps clear of both never gets there.
-/

namespace SeppPy

/-- What the loop does, as far as others can see. -/
inductive RetryAction (F : Type)
  | call (attempt : ℕ)
  | sleep (delay : F)
deriving DecidableEq, Repr

variable {F : Type} [PyFloat F] {α : Type} (policy : RetryPolicy F) (codes : List StatusCode)
  (outcomes : ℕ → Except PyError α) (random : ℕ → F)

/-- The calls and sleeps of the `while True` loop in their order, from call number `attempt` on. -/
def retryActions (attempt : ℕ) (backoff : Timedelta) : List (RetryAction F) :=
  .call attempt ::
    match outcomes attempt with
    | .ok _ => []
    | .error (.rpc err) =>
      if attempt ≥ policy.maxAttempts ∨ err.code ∉ codes then []
      else
        .sleep (policy.delay random attempt backoff) ::
          match policy.grow backoff with
          | .ok backoff => retryActions (attempt + 1) backoff
          | .error _ => []
    | .error _ => []
termination_by policy.maxAttempts - attempt

/-- The calls and sleeps of `_with_retry`. -/
def withRetryActions : List (RetryAction F) :=
  retryActions policy codes outcomes random 1 policy.initialBackoff

section Order

variable {policy codes outcomes} {attempt stop : ℕ}

theorem retryActions_again (again : Retries policy codes outcomes attempt) (backoff : Timedelta) :
    retryActions policy codes outcomes random attempt backoff =
      .call attempt :: .sleep (policy.delay random attempt backoff) ::
        match policy.grow backoff with
        | .ok next => retryActions policy codes outcomes random (attempt + 1) next
        | .error _ => [] := by
  obtain ⟨err, ended, _⟩ := again.2
  rw [retryActions, ended]
  dsimp only
  rw [if_neg ((retries_iff ended).mp again)]

theorem retryActions_ends (last : ¬ Retries policy codes outcomes attempt) (backoff : Timedelta) :
    retryActions policy codes outcomes random attempt backoff = [.call attempt] := by
  rw [retryActions]
  split
  · rfl
  · next err ended => rw [if_pos (not_not.mp (last ∘ (retries_iff ended).mpr))]
  · rfl

/-- The calls are made in order, with one sleep between each two. -/
theorem retryActions_eq (stops : Stops policy codes outcomes attempt stop) {backoff last : Timedelta}
    (grows : policy.grown (stop - attempt) backoff = .ok last) :
    retryActions policy codes outcomes random attempt backoff =
      .call attempt ::
        ((policy.delays random (stop - attempt) attempt backoff).zipIdx (attempt + 1)).flatMap
          fun (delay, n) => [.sleep delay, .call n] := by
  obtain ⟨count, rfl⟩ := Nat.exists_eq_add_of_le stops.1.1
  rw [Nat.add_sub_cancel_left] at grows ⊢
  induction count generalizing attempt backoff with
  | zero =>
    rw [Nat.add_zero] at stops
    rw [retryActions_ends random stops.1.2]
    rfl
  | succ count ih =>
    have more : attempt < attempt + (count + 1) := by omega
    have rest := stops.succ more
    have shift : attempt + (count + 1) = attempt + 1 + count := by omega
    rw [shift] at rest
    obtain ⟨next, once, grows⟩ := Except.bind_eq_ok_iff.mp grows
    simp only [retryActions_again random (stops.retries le_rfl more), RetryPolicy.delays, once,
      ih rest grows]
    rfl

/-- The first call that the loop does not follow with another is the first one that ends for good,
or else the last that the policy allows. -/
theorem Stops.isLeast (stops : Stops policy codes outcomes attempt stop)
    (room : stop ≤ policy.maxAttempts) :
    IsLeast {n | attempt ≤ n ∧ (¬ Retryable codes (outcomes n) ∨ n = policy.maxAttempts)} stop := by
  constructor
  · refine ⟨stops.1.1, ?_⟩
    by_cases final : Retryable codes (outcomes stop)
    · have used : ¬ stop < policy.maxAttempts := fun more => stops.1.2 ⟨more, final⟩
      exact .inr (by omega)
    · exact .inl final
  · rintro n ⟨above, ended⟩
    apply stops.2
    refine ⟨above, ?_⟩
    rintro ⟨more, again⟩
    rcases ended with final | used
    · exact final again
    · omega

end Order

/-- Call number `n` is where the loop should stop: the first that ends for good or uses up the
attempts. -/
def LastCall (maxAttempts : ℤ) (n : ℕ) : Prop :=
  IsLeast {n : ℕ | 1 ≤ n ∧ (¬ Retryable codes (outcomes n) ∨ (n : ℤ) = max 1 maxAttempts)} n

/-- The loop calls its factory until a call ends for good or the attempts are used up, sleeps once
between each two calls and ends with the outcome of the last one. -/
structure StopsInPlace (maxAttempts : ℤ) : Prop where
  calls : LastCall codes outcomes maxAttempts (withRetry policy codes outcomes random).calls
  sleeps : (withRetry policy codes outcomes random).sleeps.length + 1 =
    (withRetry policy codes outcomes random).calls
  order : withRetryActions policy codes outcomes random = .call 1 ::
    ((withRetry policy codes outcomes random).sleeps.zipIdx 2).flatMap
      fun (delay, n) => [.sleep delay, .call n]
  result : (withRetry policy codes outcomes random).result =
    outcomes (withRetry policy codes outcomes random).calls

/-- The stub of a server that stays unavailable. -/
def outage : ℕ → Except PyError Unit := fun _ => .error (.rpc ⟨.unavailable, none⟩)

theorem retryable_outage (n : ℕ) : Retryable RETRYABLE_CODES (outage n) :=
  ⟨⟨.unavailable, none⟩, rfl, by decide⟩

section Clamped

variable {policy codes outcomes} {maxAttempts : ℤ} {k stop : ℕ}

private theorem Stops.lastCall (stops : Stops policy codes outcomes 1 stop)
    (room : stop ≤ policy.maxAttempts) (clamped : (policy.maxAttempts : ℤ) = max 1 maxAttempts) :
    LastCall codes outcomes maxAttempts stop := by
  simpa only [LastCall, ← clamped, Nat.cast_inj] using stops.isLeast room

/-- The loop stops where it should exactly if the backoff can be grown before each further call. -/
theorem stopsInPlace_iff (clamped : (policy.maxAttempts : ℤ) = max 1 maxAttempts)
    (last : LastCall codes outcomes maxAttempts k) :
    StopsInPlace policy codes outcomes random maxAttempts ↔
      ∃ backoff, policy.grown (k - 1) policy.initialBackoff = .ok backoff := by
  obtain ⟨stop, room, stops⟩ := exists_stops policy codes outcomes
  obtain rfl : k = stop := last.unique (stops.lastCall room clamped)
  constructor
  · intro inPlace
    -- the number of calls shows how often the backoff has been grown
    have calls : (withRetry policy codes outcomes random).calls = k := inPlace.calls.unique last
    rw [withRetry_eq random stops] at calls
    exact RetryPolicy.growths_eq_iff.mp (Nat.eq_sub_of_add_eq' calls)
  · rintro ⟨backoff, grows⟩
    have whole := withRetry_eq_of_grown random stops grows
    have all := RetryPolicy.growths_eq_iff.mpr ⟨backoff, grows⟩
    refine ⟨?_, ?_, ?_, ?_⟩
    · rwa [whole]
    · rw [whole, RetryPolicy.length_delays random all]
      exact Nat.sub_add_cancel stops.1.1
    · rw [whole]
      exact retryActions_eq random stops grows
    · rw [whole]

/-- A server that stays unavailable uses up the attempts. -/
theorem lastCall_outage (policy : RetryPolicy F)
    (clamped : (policy.maxAttempts : ℤ) = max 1 maxAttempts) :
    LastCall RETRYABLE_CODES outage maxAttempts policy.maxAttempts := by
  refine ⟨⟨policy.attemptsFloor, .inr clamped⟩, ?_⟩
  rintro n ⟨_, final | used⟩
  · exact absurd (retryable_outage n) final
  · exact (Nat.cast_injective (used.trans clamped.symm)).ge

end Clamped

/-! ## Growing the backoff -/

namespace RetryPolicy

/-- What can be grown so often can be grown less often. -/
theorem grown_of_le {policy : RetryPolicy F} {count more : ℕ} (le : count ≤ more)
    {backoff last : Timedelta} (grows : policy.grown more backoff = .ok last) :
    ∃ between, policy.grown count backoff = .ok between := by
  induction count generalizing more backoff with
  | zero => exact ⟨backoff, rfl⟩
  | succ count ih =>
    obtain ⟨more, rfl⟩ := Nat.exists_eq_add_of_le' (Nat.lt_of_lt_of_le count.succ_pos le)
    obtain ⟨next, once, rest⟩ := Except.bind_eq_ok_iff.mp grows
    obtain ⟨between, grown⟩ := ih (Nat.le_of_succ_le_succ le) rest
    exact ⟨between, Except.bind_eq_ok_iff.mpr ⟨next, once, grown⟩⟩

variable {policy : RetryPolicy Binary64} {multiplier : ℚ}

private theorem multiplier_pos
    (finite : policy.multiplier = .finite multiplier) : 0 < multiplier := by
  have one : (PyFloat.ofRat 1 : Binary64) = .finite 1 := by decide +kernel
  have clamped := policy.multiplierFloor
  rw [one, finite, PyFloat.max] at clamped
  split at clamped
  · next above =>
    have above : (1 : ℚ) < multiplier := of_decide_eq_true above
    linarith
  · cases clamped
    norm_num

/-- A backoff that is not negative grows to another, if the maximum is a day short of the longest
`timedelta` and the multiplier is no infinity. -/
theorem grow_of_finite (finite : policy.multiplier = .finite multiplier)
    (longest : 0 ≤ (policy.maxBackoff : ℤ)) (fits : policy.maxBackoff ≤ (86399999827200000000 : ℤ))
    {backoff : Timedelta} (nonneg : 0 ≤ (backoff : ℤ)) :
    ∃ next, policy.grow backoff = .ok next ∧ 0 ≤ (next : ℤ) := by
  have seconds : (backoff.totalSeconds : Binary64).Nonneg :=
    Binary64.nonneg_round (div_nonneg (by exact_mod_cast nonneg) (by norm_num))
  have cap_nonneg : (0 : ℚ) ≤ policy.maxBackoff / 1000000 :=
    div_nonneg (by exact_mod_cast longest) (by norm_num)
  have cap_le : (policy.maxBackoff / 1000000 : ℚ) ≤ 86399999827200 := by
    rw [div_le_iff₀ (by norm_num)]
    calc ((policy.maxBackoff : ℤ) : ℚ) ≤ (86399999827200000000 : ℤ) := Int.cast_le.mpr fits
      _ ≤ 86399999827200 * 1000000 := by norm_num
  have cap : (policy.maxBackoff.totalSeconds : Binary64) =
      .finite (Binary64.nearest (policy.maxBackoff / 1000000)) :=
    Binary64.round_of_lt cap_nonneg (by linarith)
  have near := Binary64.nearest_le (q := policy.maxBackoff / 1000000)
    (by rw [abs_of_nonneg cap_nonneg]; linarith)
  obtain ⟨value, smaller, value_nonneg, value_le⟩ :=
    PyFloat.min_of_nonneg (seconds.mul (multiplier_pos finite)) (Binary64.nearest_nonneg cap_nonneg)
  have grown : policy.grow backoff = Timedelta.ofSeconds (Binary64.finite value) := by
    rw [grow, finite, cap, ← smaller]
    rfl
  rw [grown]
  exact Timedelta.ofSeconds_of_le value_nonneg (by linarith)

/-- So such a policy never leaves the loop by an error of its own, however often it retries. -/
theorem grown_of_finite (finite : policy.multiplier = .finite multiplier)
    (longest : 0 ≤ (policy.maxBackoff : ℤ)) (fits : policy.maxBackoff ≤ (86399999827200000000 : ℤ))
    {backoff : Timedelta} (nonneg : 0 ≤ (backoff : ℤ)) (count : ℕ) :
    ∃ last, policy.grown count backoff = .ok last := by
  induction count generalizing backoff with
  | zero => exact ⟨backoff, rfl⟩
  | succ count ih =>
    obtain ⟨next, once, positive⟩ := grow_of_finite finite longest fits nonneg
    obtain ⟨last, grown⟩ := ih positive
    exact ⟨last, Except.bind_eq_ok_iff.mpr ⟨next, once, grown⟩⟩

end RetryPolicy

/-! ## Where the loop stops -/

/-- `_with_retry` stops where it should exactly if `timedelta` can hold each backoff grown before its
last call, and a policy has it stop there for every factory exactly if that goes for as many
backoffs as the attempts allow. -/
theorem withRetry_stops_iff (maxAttempts : ℤ) (initialBackoff maxBackoff : Timedelta)
    (multiplier : F) (jitter : Bool) :
    let policy := RetryPolicy.init maxAttempts initialBackoff maxBackoff multiplier jitter
    (∀ {α : Type} (codes : List StatusCode) (outcomes : ℕ → Except PyError α) (random : ℕ → F) k,
        LastCall codes outcomes maxAttempts k →
        (StopsInPlace policy codes outcomes random maxAttempts ↔
          ∃ backoff, policy.grown (k - 1) initialBackoff = .ok backoff)) ∧
      ((∀ {α : Type} (codes : List StatusCode) (outcomes : ℕ → Except PyError α) (random : ℕ → F),
          StopsInPlace policy codes outcomes random maxAttempts) ↔
        ∃ backoff, policy.grown ((max 1 maxAttempts).toNat - 1) initialBackoff = .ok backoff) := by
  intro policy
  have clamped : (policy.maxAttempts : ℤ) = max 1 maxAttempts := by
    have floor := le_max_left 1 maxAttempts
    exact Int.toNat_of_nonneg (by omega)
  refine ⟨fun codes outcomes random k last => stopsInPlace_iff random clamped last, ?_, ?_⟩
  · intro every
    exact (stopsInPlace_iff (fun _ => PyFloat.ofRat 0) clamped (lastCall_outage policy clamped)).mp
      (every RETRYABLE_CODES outage _)
  · rintro ⟨backoff, grows⟩ α codes outcomes random
    obtain ⟨stop, room, stops⟩ := exists_stops policy codes outcomes
    refine (stopsInPlace_iff random clamped (stops.lastCall room clamped)).mpr ?_
    exact RetryPolicy.grown_of_le (Nat.sub_le_sub_right room 1) grows

/-- The default backoffs over doubles: three attempts at a server that stays unavailable, and the
error of the last of them. -/
theorem withRetry_stops_iff_default :
    StopsInPlace (.init 3 : RetryPolicy Binary64) RETRYABLE_CODES outage (fun _ => .finite 0) 3 := by
  have multiplier : (RetryPolicy.init 3 : RetryPolicy Binary64).multiplier = .finite 2 := by
    decide +kernel
  exact ((withRetry_stops_iff 3 100000 10000000 (PyFloat.ofRat 2 : Binary64) true).1 _ _ _ 3
    (lastCall_outage (.init 3 : RetryPolicy Binary64) (by decide))).mpr
    (RetryPolicy.grown_of_finite multiplier (by decide) (by decide) (by decide) _)

/-- Without a cap to speak of, the first backoff above the longest `timedelta` is rounded up to what
`timedelta` cannot hold: its `OverflowError` replaces the RPC's error after the first call. -/
theorem withRetry_outgrows :
    let policy : RetryPolicy Binary64 := .init 3 100000 Timedelta.MAX (.finite 1000000000000000)
    let run := withRetry policy RETRYABLE_CODES outage fun _ => .finite 0
    run.calls = 1 ∧
      run.result = .error (.overflowError "days=1000000000; must have magnitude <= 999999999") ∧
      ¬ StopsInPlace policy RETRYABLE_CODES outage (fun _ => .finite 0) 3 := by
  intro policy run
  have grow : policy.grow 100000 =
      .error (.overflowError "days=1000000000; must have magnitude <= 999999999") := by
    decide +kernel
  have again : Retries policy RETRYABLE_CODES outage 1 := ⟨by decide, retryable_outage 1⟩
  have turn := retryLoop_again (fun _ => Binary64.finite 0) again 100000 []
  rw [grow] at turn
  have whole : run = _ := turn
  refine ⟨?_, ?_, fun inPlace => ?_⟩
  · rw [whole]
  · rw [whole]
  · have result : run.result = outage run.calls := inPlace.result
    rw [whole] at result
    cases result

end SeppPy
