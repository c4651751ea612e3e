import SeppPy.Data.Except
import SeppPy.PyFloat
import Mathlib.Order.Bounds.Basic

/-! # The retry loop of unary calls

`withRetry` follows `_with_retry` over the outcomes of successive calls of its factory: `outcomes n`
is what the `n`-th call ends with and `random n` what `random.random()` returns before the sleep
that follows it. The result records how often the factory was called and how long the loop slept.

After each call the loop either sleeps and goes around once more or ends with the outcome of that
call, and which of the two depends on the outcome and on the number of the call only. So the
loop stops at the least call after which it does not go around, unless the backoff outgrows
`timedelta` before. That depends on the policy alone, so the number determines the run.
-/

namespace SeppPy

/-- Backoff policy for transient failures; values below a floor are clamped. -/
structure RetryPolicy (F : Type) [PyFloat F] where
  maxAttempts : ℕ
  initialBackoff : Timedelta
  maxBackoff : Timedelta
  multiplier : F
  jitter : Bool
  attemptsFloor : 1 ≤ maxAttempts
  multiplierFloor : PyFloat.max (PyFloat.ofRat 1) multiplier = multiplier

variable {F : Type} [PyFloat F]

/-- `RetryPolicy(...)` with the clamping of `__post_init__`. -/
def RetryPolicy.init (maxAttempts : ℤ := 1) (initialBackoff : Timedelta := 100000)
    (maxBackoff : Timedelta := 10000000) (multiplier : F := PyFloat.ofRat 2)
    (jitter : Bool := true) : RetryPolicy F where
  maxAttempts := (max 1 maxAttempts).toNat
  initialBackoff
  maxBackoff
  multiplier := PyFloat.max (PyFloat.ofRat 1) multiplier
  jitter
  attemptsFloor := by have := le_max_left 1 maxAttempts; omega
  multiplierFloor := PyFloat.max_max _ _

namespace RetryPolicy

open PyFloat

variable (policy : RetryPolicy F) (random : ℕ → F)

/-- The seconds slept after call number `attempt`. -/
def delay (attempt : ℕ) (backoff : Timedelta) : F :=
  if policy.jitter then
    mul backoff.totalSeconds (add (ofRat (1 / 2)) (mul (ofRat (1 / 2)) (random attempt)))
  else backoff.totalSeconds

/-- The backoff after a sleep. -/
def grow (backoff : Timedelta) : Except PyError Timedelta :=
  Timedelta.ofSeconds (min (mul backoff.totalSeconds policy.multiplier)
    (Timedelta.totalSeconds policy.maxBackoff))

/-- The backoff after `count` sleeps on end, if it can be grown as often. -/
def grown : ℕ → Timedelta → Except PyError Timedelta
  | 0, backoff => .ok backoff
  | count + 1, backoff => policy.grow backoff >>= grown count

/-- How often the backoff can be grown in `count` sleeps on end. -/
def growths : ℕ → Timedelta → ℕ
  | 0, _ => 0
  | count + 1, backoff =>
    match policy.grow backoff with
    | .ok backoff => growths count backoff + 1
    | .error _ => 0

/-- The delays of `count` sleeps on end, the first of them after call number `attempt`. There are
fewer if the backoff cannot be grown. -/
def delays : ℕ → ℕ → Timedelta → List F
  | 0, _, _ => []
  | count + 1, attempt, backoff =>
    policy.delay random attempt backoff ::
      match policy.grow backoff with
      | .ok backoff => delays count (attempt + 1) backoff
      | .error _ => []

variable {policy} {count : ℕ} {backoff : Timedelta}

theorem growths_eq_iff :
    policy.growths count backoff = count ↔ ∃ last, policy.grown count backoff = .ok last := by
  induction count generalizing backoff with
  | zero => exact iff_of_true rfl ⟨backoff, rfl⟩
  | succ count ih =>
    simp only [growths, grown, Except.bind_eq_ok_iff]
    cases once : policy.grow backoff with
    | error err => simp
    | ok next => simp [ih]

private theorem growths_le : policy.growths count backoff ≤ count := by
  induction count generalizing backoff with
  | zero => exact le_rfl
  | succ count ih =>
    unfold growths
    split
    · exact Nat.succ_le_succ ih
    · exact Nat.zero_le _

/-- As often as the backoff is grown, there has been a sleep before. -/
theorem length_delays (grows : policy.growths count backoff = count) (attempt : ℕ) :
    (policy.delays random count attempt backoff).length = count := by
  induction count generalizing attempt backoff with
  | zero => rfl
  | succ count ih =>
    rw [growths] at grows
    rw [delays, List.length_cons]
    split at grows
    · next next once =>
      simp only [ih (Nat.succ_injective grows)]
    · contradiction

end RetryPolicy

/-- What a call made of the retry loop returned or raised, and what it did on the way. -/
structure Retried (F α : Type) where
  result : Except PyError α
  calls : ℕ
  sleeps : List F

variable {α : Type} (policy : RetryPolicy F) (codes : List StatusCode)
  (outcomes : ℕ → Except PyError α) (random : ℕ → F)

open PyFloat in
/-- The `while True` loop, about to make call number `attempt`. -/
def retryLoop (attempt : ℕ) (backoff : Timedelta) (sleeps : List F) : Retried F α :=
  match outcomes attempt with
  | .ok value => ⟨.ok value, attempt, sleeps⟩
  | .error (.rpc err) =>
    if attempt ≥ policy.maxAttempts ∨ err.code ∉ codes then ⟨.error (.rpc err), attempt, sleeps⟩
    else
      let delay :=
        if policy.jitter then
          mul backoff.totalSeconds (add (ofRat (1 / 2)) (mul (ofRat (1 / 2)) (random attempt)))
        else backoff.totalSeconds
      let sleeps := sleeps ++ [delay]
      match Timedelta.ofSeconds (min (mul backoff.totalSeconds policy.multiplier)
        (Timedelta.totalSeconds policy.maxBackoff)) with
      | .ok backoff => retryLoop (attempt + 1) backoff sleeps
      -- what `timedelta` raises leaves the loop in place of the RPC's error
      | .error err => ⟨.error err, attempt, sleeps⟩
  | .error err => ⟨.error err, attempt, sleeps⟩
termination_by policy.maxAttempts - attempt

/-- `SeppClient._with_retry`. -/
def withRetry : Retried F α := retryLoop policy codes outcomes random 1 policy.initialBackoff []

/-- The outcome calls for another attempt. -/
def Retryable (outcome : Except PyError α) : Prop :=
  ∃ err, outcome = .error (.rpc err) ∧ err.code ∈ codes

/-- The loop goes around once more after call number `attempt`. -/
def Retries (attempt : ℕ) : Prop :=
  attempt < policy.maxAttempts ∧ Retryable codes (outcomes attempt)

/-! ## One turn of the loop -/

section Turn

variable {policy codes outcomes} {attempt : ℕ}

/-- An `AioRpcError` is retried unless the loop raises it again. -/
theorem retries_iff {err : AioRpcError} (ended : outcomes attempt = .error (.rpc err)) :
    Retries policy codes outcomes attempt ↔
      ¬ (attempt ≥ policy.maxAttempts ∨ err.code ∉ codes) := by
  rw [not_or, not_le, not_not]
  constructor
  · rintro ⟨room, err', same, code⟩
    rw [ended] at same
    cases same
    exact ⟨room, code⟩
  · rintro ⟨room, code⟩
    exact ⟨room, err, ended, code⟩

theorem retryLoop_again (again : Retries policy codes outcomes attempt) (backoff : Timedelta)
    (sleeps : List F) :
    retryLoop policy codes outcomes random attempt backoff sleeps =
      match policy.grow backoff with
      | .ok next => retryLoop policy codes outcomes random (attempt + 1) next
        (sleeps ++ [policy.delay random attempt backoff])
      | .error err => ⟨.error err, attempt, sleeps ++ [policy.delay random attempt backoff]⟩ := by
  obtain ⟨err, ended, _⟩ := again.2
  rw [retryLoop, ended]
  dsimp only
  rw [if_neg ((retries_iff ended).mp again)]
  rfl

theorem retryLoop_ends (last : ¬ Retries policy codes outcomes attempt) (backoff : Timedelta)
    (sleeps : List F) :
    retryLoop policy codes outcomes random attempt backoff sleeps =
      ⟨outcomes attempt, attempt, sleeps⟩ := by
  rw [retryLoop]
  split
  · next value ended => rw [ended]
  · next err ended => rw [if_pos (not_not.mp (last ∘ (retries_iff ended).mpr)), ended]
  · next err _ ended => rw [ended]

end Turn

/-! ## The whole loop -/

/-- Call number `stop` is the first from `attempt` on after which the loop does not go around. -/
def Stops (attempt stop : ℕ) : Prop :=
  IsLeast {n | attempt ≤ n ∧ ¬ Retries policy codes outcomes n} stop

section Loop

variable {policy codes outcomes} {attempt stop : ℕ}

theorem Stops.retries (stops : Stops policy codes outcomes attempt stop) {n : ℕ}
    (above : attempt ≤ n) (more : n < stop) : Retries policy codes outcomes n := by
  by_contra last
  exact absurd (stops.2 ⟨above, last⟩) (Nat.not_le.mpr more)

theorem Stops.succ (stops : Stops policy codes outcomes attempt stop) (more : attempt < stop) :
    Stops policy codes outcomes (attempt + 1) stop := by
  refine ⟨⟨more, stops.1.2⟩, ?_⟩
  rintro n ⟨above, last⟩
  exact stops.2 ⟨by omega, last⟩

/-- The run is determined by the call after which the loop would stop. It gets there if the backoff
can be grown before each further call, and otherwise ends with what `timedelta` raises. -/
theorem retryLoop_eq (stops : Stops policy codes outcomes attempt stop) (backoff : Timedelta)
    (sleeps : List F) :
    retryLoop policy codes outcomes random attempt backoff sleeps =
      ⟨policy.grown (stop - attempt) backoff >>= fun _ => outcomes stop,
        attempt + policy.growths (stop - attempt) backoff,
        sleeps ++ policy.delays random (stop - attempt) attempt backoff⟩ := by
  obtain ⟨count, rfl⟩ := Nat.exists_eq_add_of_le stops.1.1
  rw [Nat.add_sub_cancel_left]
  induction count generalizing attempt backoff sleeps with
  | zero =>
    rw [Nat.add_zero] at stops ⊢
    rw [retryLoop_ends random stops.1.2, RetryPolicy.delays, List.append_nil]
    rfl
  | succ count ih =>
    have more : attempt < attempt + (count + 1) := by omega
    have shift : attempt + (count + 1) = attempt + 1 + count := by omega
    have rest := stops.succ more
    rw [shift] at rest
    rw [retryLoop_again random (stops.retries le_rfl more), RetryPolicy.grown, RetryPolicy.growths,
      RetryPolicy.delays, shift]
    cases policy.grow backoff with
    | error err => rfl
    | ok next =>
      have calls : attempt + 1 + policy.growths count next =
          attempt + (policy.growths count next + 1) := by omega
      dsimp only
      rw [ih _ _ rest, List.append_assoc, List.singleton_append, calls]
      rfl

end Loop

/-- `_with_retry` stops, at the latest when the attempts are used up. -/
theorem exists_stops : ∃ stop ≤ policy.maxAttempts, Stops policy codes outcomes 1 stop := by
  classical
  have last : 1 ≤ policy.maxAttempts ∧ ¬ Retries policy codes outcomes policy.maxAttempts :=
    ⟨policy.attemptsFloor, fun again => absurd again.1 (lt_irrefl _)⟩
  have found : ∃ n, 1 ≤ n ∧ ¬ Retries policy codes outcomes n := ⟨_, last⟩
  refine ⟨Nat.find found, Nat.find_min' found last, Nat.find_spec found, ?_⟩
  intro n stops
  exact Nat.find_min' found stops

variable {policy codes outcomes} in
theorem withRetry_eq {stop : ℕ} (stops : Stops policy codes outcomes 1 stop) :
    withRetry policy codes outcomes random =
      ⟨policy.grown (stop - 1) policy.initialBackoff >>= fun _ => outcomes stop,
        1 + policy.growths (stop - 1) policy.initialBackoff,
        policy.delays random (stop - 1) 1 policy.initialBackoff⟩ :=
  retryLoop_eq random stops policy.initialBackoff []

variable {policy codes outcomes} in
/-- When the backoff can be grown up to there, the loop ends with the call it stops at. -/
theorem withRetry_eq_of_grown {stop : ℕ} (stops : Stops policy codes outcomes 1 stop)
    {last : Timedelta} (grows : policy.grown (stop - 1) policy.initialBackoff = .ok last) :
    withRetry policy codes outcomes random =
      ⟨outcomes stop, stop, policy.delays random (stop - 1) 1 policy.initialBackoff⟩ := by
  have all := RetryPolicy.growths_eq_iff.mpr ⟨last, grows⟩
  rw [withRetry_eq random stops, grows, all, Nat.add_sub_cancel' stops.1.1]
  rfl

/-- What the loop returns is the outcome of its last call, and every earlier call ended
retryably. -/
theorem withRetry_spec :
    let run := withRetry policy codes outcomes random
    1 ≤ run.calls ∧ (∀ value, run.result = .ok value → outcomes run.calls = .ok value) ∧
      ∀ n, 1 ≤ n → n < run.calls → Retryable codes (outcomes n) := by
  obtain ⟨stop, _, stops⟩ := exists_stops policy codes outcomes
  have room : policy.growths (stop - 1) policy.initialBackoff ≤ stop - 1 := RetryPolicy.growths_le
  have first := stops.1.1
  rw [withRetry_eq random stops]
  refine ⟨Nat.le_add_right 1 _, ?_, ?_⟩
  · intro value returned
    obtain ⟨last, grows, ended⟩ := Except.bind_eq_ok_iff.mp returned
    have all := RetryPolicy.growths_eq_iff.mpr ⟨last, grows⟩
    dsimp only
    rwa [all, Nat.add_sub_cancel' first]
  · intro n above below
    dsimp only at below
    exact (stops.retries above (by omega)).2

/-- The loop gets an answer: some call the policy leaves room for returns the value, every one
before it calls for another attempt, and the backoff can be grown as often. -/
def Answers (value : α) : Prop :=
  ∃ n, 1 ≤ n ∧ n ≤ policy.maxAttempts ∧ outcomes n = .ok value ∧
    (∀ m, 1 ≤ m → m < n → Retryable codes (outcomes m)) ∧
    ∃ last, policy.grown (n - 1) policy.initialBackoff = .ok last

/-- A call that always returns a value is answered at once. -/
theorem answers_const (value : α) : Answers policy codes (fun _ => .ok value) value :=
  ⟨1, le_rfl, policy.attemptsFloor, rfl, fun _ above below => absurd above (Nat.not_le.mpr below),
    policy.initialBackoff, rfl⟩

/-- The loop returns a value exactly when a call within the allowed attempts does. -/
theorem withRetry_ok_iff (value : α) :
    (withRetry policy codes outcomes random).result = .ok value ↔
      Answers policy codes outcomes value := by
  obtain ⟨stop, room, stops⟩ := exists_stops policy codes outcomes
  rw [withRetry_eq random stops, Except.bind_eq_ok_iff]
  constructor
  · rintro ⟨last, grows, returned⟩
    refine ⟨stop, stops.1.1, room, returned, ?_, last, grows⟩
    intro n above below
    exact (stops.retries above below).2
  · rintro ⟨n, above, allowed, returned, retried, last, grows⟩
    -- the call that returns the value is not retried, and those before it are
    have final : ¬ Retries policy codes outcomes n := by
      rintro ⟨_, err, failed, _⟩
      rw [returned] at failed
      contradiction
    have least : stop ≤ n := stops.2 ⟨above, final⟩
    rcases least.eq_or_lt with rfl | below
    · exact ⟨last, grows, returned⟩
    · exact absurd ⟨below.trans_le allowed, retried stop stops.1.1 below⟩ stops.1.2

variable {policy codes outcomes} in
/-- A call is answered with one value only. -/
theorem Answers.unique {value value' : α} (answered : Answers policy codes outcomes value)
    (answered' : Answers policy codes outcomes value') : value = value' := by
  rw [← withRetry_ok_iff policy codes outcomes fun _ => PyFloat.ofRat 0] at answered answered'
  exact Except.ok.inj (answered.symm.trans answered')

section Maps

variable {policy outcomes} {β : Type} (f : α → β)

private theorem retryable_map (outcome : Except PyError α) :
    Retryable codes (outcome.map f) ↔ Retryable codes outcome := by
  cases outcome with
  | ok value => simp [Retryable, Except.map]
  | error err => simp [Retryable, Except.map]

/-- The retry loop does not look into what it returns. -/
theorem withRetry_map :
    withRetry policy codes (fun n => (outcomes n).map f) random =
      let run := withRetry policy codes outcomes random
      ⟨run.result.map f, run.calls, run.sleeps⟩ := by
  have same (n : ℕ) : Retries policy codes (fun n => (outcomes n).map f) n ↔
      Retries policy codes outcomes n := and_congr_right fun _ => retryable_map codes f (outcomes n)
  obtain ⟨stop, _, stops⟩ := exists_stops policy codes outcomes
  have stops' : Stops policy codes (fun n => (outcomes n).map f) 1 stop := by
    simpa only [Stops, same] using stops
  rw [withRetry_eq random stops, withRetry_eq random stops']
  cases policy.grown (stop - 1) policy.initialBackoff <;> rfl

end Maps

end SeppPy
