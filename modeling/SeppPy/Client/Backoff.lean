import SeppPy.Client.Attempts

/-! # The delays of the retry loop

In exact arithmetic the backoff is capped when it grows, so every delay but the first stays within
`max_backoff`; the first is the initial backoff as it is. A backoff that lies within the maximum once
stays there and does not shrink, and the jitter scales each delay without touching the backoff. What
is left of the policy's promise then depends on the first delay alone.
-/

namespace SeppPy

open Timedelta

namespace RetryPolicy

/-- The same policy without jitter. -/
def plain {F : Type} [PyFloat F] (policy : RetryPolicy F) : RetryPolicy F :=
  { policy with jitter := false }

variable {policy : RetryPolicy ℚ} {random : ℕ → ℚ} {backoff next : Timedelta}

/-- What `random.random()` returns lies in `[0, 1)`. -/
def Draws (random : ℕ → ℚ) : Prop := ∀ n, 0 ≤ random n ∧ random n < 1

/-- The delay lies in `[1/2, 1)` of the one without jitter, or both are zero. -/
def Jittered (delay plain : ℚ) : Prop :=
  (plain / 2 ≤ delay ∧ delay < plain) ∨ (delay = 0 ∧ plain = 0)

private theorem totalSeconds_nonneg (positive : 0 ≤ (backoff : ℤ)) :
    (0 : ℚ) ≤ totalSeconds backoff := by
  have zero : (totalSeconds 0 : ℚ) = 0 := by simp [totalSeconds_rat]
  rw [← zero]
  exact totalSeconds_le_iff.mpr positive

/-! ## One sleep -/

private theorem delay_of_jitter (jitter : policy.jitter = true) (attempt : ℕ) :
    policy.delay random attempt backoff =
      totalSeconds backoff * (1 / 2 + 1 / 2 * random attempt) := if_pos jitter

private theorem delay_of_plain (plain : policy.jitter = false) (attempt : ℕ) :
    policy.delay random attempt backoff = totalSeconds backoff := by
  rw [delay, plain, if_neg Bool.false_ne_true]

/-- The grown backoff is the product or the cap, rounded to microseconds. -/
theorem grow_eq (grows : policy.grow backoff = .ok next) :
    (next : ℤ) = (min (totalSeconds backoff * policy.multiplier)
      (totalSeconds policy.maxBackoff) * 1000000).roundHalfEven := by
  unfold grow at grows
  rw [ofSeconds_rat, ofMicros_ok_iff, PyFloat.min_rat] at grows
  exact grows.2

/-- A whole number of microseconds is not rounded. -/
theorem roundHalfEven_totalSeconds (td : Timedelta) :
    ((totalSeconds td : ℚ) * 1000000).roundHalfEven = td := by
  rw [totalSeconds_rat, div_mul_cancel₀ _ (by norm_num), Rat.roundHalfEven_intCast]

/-- Growing caps the backoff. -/
theorem grow_le (grows : policy.grow backoff = .ok next) : (next : ℤ) ≤ policy.maxBackoff := by
  have capped : min (totalSeconds backoff * policy.multiplier) (totalSeconds policy.maxBackoff) *
      1000000 ≤ totalSeconds policy.maxBackoff * 1000000 :=
    mul_le_mul_of_nonneg_right (min_le_right _ _) (by norm_num)
  have rounded := Rat.roundHalfEven_mono capped
  rwa [← grow_eq grows, roundHalfEven_totalSeconds] at rounded

private theorem one_le_multiplier (policy : RetryPolicy ℚ) : 1 ≤ policy.multiplier := by
  have clamped := policy.multiplierFloor
  rw [PyFloat.max_rat] at clamped
  exact max_eq_right_iff.mp clamped

/-- What is neither above the backoff nor above the cap is not above the grown backoff. -/
theorem le_grow (grows : policy.grow backoff = .ok next) {floor : Timedelta}
    (positive : 0 ≤ (backoff : ℤ)) (below : (floor : ℤ) ≤ backoff)
    (allowed : (floor : ℤ) ≤ policy.maxBackoff) : (floor : ℤ) ≤ next := by
  have larger : (totalSeconds floor : ℚ) ≤ totalSeconds backoff * policy.multiplier := by
    calc (totalSeconds floor : ℚ) ≤ totalSeconds backoff := totalSeconds_le_iff.mpr below
      _ ≤ totalSeconds backoff * policy.multiplier :=
        le_mul_of_one_le_right (totalSeconds_nonneg positive) policy.one_le_multiplier
  have kept : totalSeconds floor * 1000000 ≤ min (totalSeconds backoff * policy.multiplier)
      (totalSeconds policy.maxBackoff) * 1000000 :=
    mul_le_mul_of_nonneg_right (le_min larger (totalSeconds_le_iff.mpr allowed)) (by norm_num)
  have rounded := Rat.roundHalfEven_mono kept
  rwa [← grow_eq grows, roundHalfEven_totalSeconds] at rounded

private theorem grow_nonneg (grows : policy.grow backoff = .ok next) (positive : 0 ≤ (backoff : ℤ))
    (longest : 0 ≤ (policy.maxBackoff : ℤ)) : 0 ≤ (next : ℤ) :=
  le_grow grows positive positive longest

/-- The jitter takes off at most half of the delay. -/
theorem jittered_delay (draws : Draws random) (jitter : policy.jitter = true)
    (positive : 0 ≤ (backoff : ℤ)) (attempt : ℕ) :
    Jittered (policy.delay random attempt backoff) (policy.plain.delay random attempt backoff) := by
  obtain ⟨low, high⟩ := draws attempt
  have plain : policy.plain.jitter = false := rfl
  rw [delay_of_jitter jitter, delay_of_plain plain]
  rcases (totalSeconds_nonneg positive).eq_or_lt with zero | some
  · right
    rw [← zero, zero_mul]
    exact ⟨rfl, rfl⟩
  · left
    constructor
    · calc (totalSeconds backoff : ℚ) / 2 = totalSeconds backoff * (1 / 2) := by ring
        _ ≤ totalSeconds backoff * (1 / 2 + 1 / 2 * random attempt) := by gcongr; linarith
    · calc (totalSeconds backoff : ℚ) * (1 / 2 + 1 / 2 * random attempt)
          < totalSeconds backoff * 1 := by gcongr; linarith
        _ = totalSeconds backoff := mul_one _

theorem Jittered.le {delay plain : ℚ} (jittered : Jittered delay plain) : delay ≤ plain := by
  rcases jittered with ⟨_, less⟩ | ⟨zero, zero'⟩
  · exact less.le
  · rw [zero, zero']

/-- A delay is at most its backoff. -/
theorem delay_le (draws : Draws random) (positive : 0 ≤ (backoff : ℤ)) (attempt : ℕ) :
    policy.delay random attempt backoff ≤ totalSeconds backoff := by
  cases jitter : policy.jitter with
  | true =>
    have plain : policy.plain.jitter = false := rfl
    have scaled := (jittered_delay draws jitter positive attempt).le
    rwa [delay_of_plain plain] at scaled
  | false => rw [delay_of_plain jitter]

/-! ## Sleeps on end -/

/-- What growing keeps of the backoff, every delay shows. -/
theorem forall_delays (inv : Timedelta → Prop) {shows : ℚ → Prop}
    (keeps : ∀ backoff next, policy.grow backoff = .ok next → inv backoff → inv next)
    (each : ∀ backoff attempt, inv backoff → shows (policy.delay random attempt backoff))
    (start : inv backoff) (count attempt : ℕ) :
    ∀ delay ∈ policy.delays random count attempt backoff, shows delay := by
  induction count generalizing attempt backoff with
  | zero =>
    intro delay member
    contradiction
  | succ count ih =>
    rw [delays, List.forall_mem_cons]
    refine ⟨each backoff attempt start, ?_⟩
    split
    · next next grows => exact ih (keeps backoff next grows start) (attempt + 1)
    · exact fun _ member => absurd member List.not_mem_nil

/-- From a backoff within the cap on, every delay is. -/
theorem delays_le (draws : Draws random) (longest : 0 ≤ (policy.maxBackoff : ℤ))
    (positive : 0 ≤ (backoff : ℤ)) (within : (backoff : ℤ) ≤ policy.maxBackoff) (count attempt : ℕ) :
    ∀ delay ∈ policy.delays random count attempt backoff,
      delay ≤ totalSeconds policy.maxBackoff := by
  refine forall_delays (fun backoff => 0 ≤ (backoff : ℤ) ∧ (backoff : ℤ) ≤ policy.maxBackoff)
    ?_ ?_ ⟨positive, within⟩ count attempt
  · rintro backoff next grows ⟨positive, _⟩
    exact ⟨grow_nonneg grows positive longest, grow_le grows⟩
  · rintro backoff attempt ⟨positive, within⟩
    exact (delay_le draws positive attempt).trans (totalSeconds_le_iff.mpr within)

/-- Whatever the backoff, only the first delay can exceed the cap. -/
theorem delays_succ_le_iff (draws : Draws random) (longest : 0 ≤ (policy.maxBackoff : ℤ))
    (positive : 0 ≤ (backoff : ℤ)) (count attempt : ℕ) :
    (∀ delay ∈ policy.delays random (count + 1) attempt backoff,
        delay ≤ totalSeconds policy.maxBackoff) ↔
      policy.delay random attempt backoff ≤ totalSeconds policy.maxBackoff := by
  rw [delays, List.forall_mem_cons]
  apply and_iff_left
  split
  · next next grows =>
    exact delays_le draws longest (grow_nonneg grows positive longest) (grow_le grows) count
      (attempt + 1)
  · exact fun _ member => absurd member List.not_mem_nil

/-- Without jitter no delay is below what bounds the first backoff and the cap. -/
theorem le_delays (plain : policy.jitter = false) {floor : Timedelta} (positive : 0 ≤ (floor : ℤ))
    (below : (floor : ℤ) ≤ backoff) (allowed : (floor : ℤ) ≤ policy.maxBackoff)
    (count attempt : ℕ) :
    ∀ delay ∈ policy.delays random count attempt backoff, totalSeconds floor ≤ delay := by
  refine forall_delays (fun backoff => (floor : ℤ) ≤ backoff) ?_ ?_ below count attempt
  · intro backoff next grows below
    exact le_grow grows (positive.trans below) below allowed
  · intro backoff attempt below
    rw [delay_of_plain plain]
    exact totalSeconds_le_iff.mpr below

/-- Without jitter and from a backoff within the cap on, the delays do not decrease. -/
theorem delays_pairwise (plain : policy.jitter = false) (positive : 0 ≤ (backoff : ℤ))
    (within : (backoff : ℤ) ≤ policy.maxBackoff) (count attempt : ℕ) :
    (policy.delays random count attempt backoff).Pairwise (· ≤ ·) := by
  induction count generalizing attempt backoff with
  | zero => exact .nil
  | succ count ih =>
    rw [delays]
    split
    · next next grows =>
      have grown : (backoff : ℤ) ≤ next := le_grow grows positive le_rfl within
      refine .cons ?_ (ih (positive.trans grown) (grow_le grows) (attempt + 1))
      rw [delay_of_plain plain]
      exact le_delays plain positive grown within count (attempt + 1)
    · exact List.pairwise_singleton ..

/-- With jitter every delay is scaled, and the backoff it grows from is the same. -/
theorem delays_jittered (draws : Draws random) (jitter : policy.jitter = true)
    (longest : 0 ≤ (policy.maxBackoff : ℤ)) (positive : 0 ≤ (backoff : ℤ)) (count attempt : ℕ) :
    List.Forall₂ Jittered (policy.delays random count attempt backoff)
      (policy.plain.delays random count attempt backoff) := by
  induction count generalizing attempt backoff with
  | zero => exact .nil
  | succ count ih =>
    refine .cons (jittered_delay draws jitter positive attempt) ?_
    -- the backoff grows alike with and without jitter
    have alike : policy.plain.grow backoff = policy.grow backoff := rfl
    rw [alike]
    split
    · next next grows => exact ih (grow_nonneg grows positive longest) (attempt + 1)
    · exact .nil

/-- What a policy promises of the delays of a run; `plain` are those the same run would have without
jitter. -/
structure Respects (policy : RetryPolicy ℚ) (delays plain : List ℚ) : Prop where
  capped : ∀ delay ∈ delays, delay ≤ totalSeconds policy.maxBackoff
  growing : policy.jitter = false → delays.Pairwise (· ≤ ·)
  jittered : policy.jitter = true → List.Forall₂ Jittered delays plain

/-- Before the first sleep only, and for want of the cap, the promise can be broken. -/
theorem respects_delays_iff (draws : Draws random) (longest : 0 ≤ (policy.maxBackoff : ℤ))
    (positive : 0 ≤ (backoff : ℤ)) (count attempt : ℕ) :
    policy.Respects (policy.delays random (count + 1) attempt backoff)
        (policy.plain.delays random (count + 1) attempt backoff) ↔
      policy.delay random attempt backoff ≤ totalSeconds policy.maxBackoff := by
  rw [← delays_succ_le_iff draws longest positive count attempt]
  constructor
  · intro respects
    exact respects.capped
  · intro capped
    refine ⟨capped, fun plain => ?_, fun jitter => ?_⟩
    · have first := (delays_succ_le_iff draws longest positive count attempt).mp capped
      rw [delay_of_plain plain, totalSeconds_le_iff] at first
      exact delays_pairwise plain positive first (count + 1) attempt
    · exact delays_jittered draws jitter longest positive (count + 1) attempt

end RetryPolicy

section Run

open RetryPolicy

variable {α : Type} (policy : RetryPolicy ℚ) (codes : List StatusCode)
  (outcomes : ℕ → Except PyError α) (random : ℕ → ℚ)

/-- The run keeps what the policy promises. -/
def RunRespects : Prop :=
  policy.Respects (withRetry policy codes outcomes random).sleeps
    (withRetry policy.plain codes outcomes random).sleeps

/-- The first call is not retried, the initial backoff is within the cap, or its jitter takes it
there. -/
def FirstFits : Prop :=
  ¬ Retries policy codes outcomes 1 ∨ (policy.initialBackoff : ℤ) ≤ policy.maxBackoff ∨
    (policy.jitter = true ∧
      totalSeconds policy.initialBackoff * (1 / 2 + 1 / 2 * random 1) ≤
        totalSeconds policy.maxBackoff)

variable {policy codes outcomes random}

private theorem delay_le_iff (draws : Draws random) (initial : 0 ≤ (policy.initialBackoff : ℤ)) :
    policy.delay random 1 policy.initialBackoff ≤ totalSeconds policy.maxBackoff ↔
      (policy.initialBackoff : ℤ) ≤ policy.maxBackoff ∨
        (policy.jitter = true ∧
          totalSeconds policy.initialBackoff * (1 / 2 + 1 / 2 * random 1) ≤
            totalSeconds policy.maxBackoff) := by
  constructor
  · intro first
    cases jitter : policy.jitter with
    | true =>
      rw [delay_of_jitter jitter] at first
      exact .inr ⟨rfl, first⟩
    | false =>
      rw [delay_of_plain jitter, totalSeconds_le_iff] at first
      exact .inl first
  · rintro (within | ⟨jitter, scaled⟩)
    · exact (delay_le draws initial 1).trans (totalSeconds_le_iff.mpr within)
    · rwa [delay_of_jitter jitter]

/-- A run keeps the policy's promise exactly when its first delay does. -/
theorem runRespects_iff (draws : Draws random) (initial : 0 ≤ (policy.initialBackoff : ℤ))
    (longest : 0 ≤ (policy.maxBackoff : ℤ)) :
    RunRespects policy codes outcomes random ↔ FirstFits policy codes outcomes random := by
  obtain ⟨stop, _, stops⟩ := exists_stops policy codes outcomes
  -- jitter changes neither the calls nor the backoffs
  have plain : Stops policy.plain codes outcomes 1 stop := stops
  have first : 1 ≤ stop := stops.1.1
  rw [RunRespects, FirstFits, withRetry_eq random stops, withRetry_eq random plain,
    ← delay_le_iff draws initial]
  rcases first.eq_or_lt with rfl | more
  · refine iff_of_true ⟨?_, fun _ => .nil, fun _ => .nil⟩ (.inl stops.1.2)
    intro delay member
    contradiction
  · obtain ⟨count, rfl⟩ : ∃ count, stop = count + 2 := ⟨stop - 2, by omega⟩
    rw [or_iff_right (not_not_intro (stops.retries le_rfl more))]
    exact respects_delays_iff draws longest initial count 1

private theorem retries_outage {attempt : ℕ} (room : attempt < policy.maxAttempts) :
    Retries policy RETRYABLE_CODES outage attempt :=
  ⟨room, retryable_outage attempt⟩

/-- Some draw takes the first delay above the cap, if the initial backoff is. -/
theorem exists_draws (longest : 0 ≤ (policy.maxBackoff : ℤ))
    (above : (policy.maxBackoff : ℤ) < policy.initialBackoff) :
    ∃ random, Draws random ∧ totalSeconds policy.maxBackoff <
      totalSeconds policy.initialBackoff * (1 / 2 + 1 / 2 * random 1) := by
  have cap := totalSeconds_nonneg longest
  have less : (totalSeconds policy.maxBackoff : ℚ) < totalSeconds policy.initialBackoff := by
    rw [← not_le, totalSeconds_le_iff]
    exact not_le.mpr above
  have positive := cap.trans_lt less
  -- half of the backoff and half of the cap
  refine ⟨fun _ => totalSeconds policy.maxBackoff / totalSeconds policy.initialBackoff, ?_, ?_⟩
  · intro n
    exact ⟨div_nonneg cap positive.le, (div_lt_one positive).mpr less⟩
  · calc (totalSeconds policy.maxBackoff : ℚ)
        < totalSeconds policy.initialBackoff / 2 + totalSeconds policy.maxBackoff / 2 := by linarith
      _ = totalSeconds policy.initialBackoff * (1 / 2 + 1 / 2 *
          (totalSeconds policy.maxBackoff / totalSeconds policy.initialBackoff)) := by field_simp

/-- A run keeps its policy's promise exactly when its first delay is no longer than the cap; every
run does exactly when the policy's initial backoff is within the cap or never slept. -/
theorem delays_respect_iff (policy : RetryPolicy ℚ) (initial : 0 ≤ (policy.initialBackoff : ℤ))
    (longest : 0 ≤ (policy.maxBackoff : ℤ)) :
    (∀ {α : Type} (codes : List StatusCode) (outcomes : ℕ → Except PyError α) (random : ℕ → ℚ),
        Draws random →
          (RunRespects policy codes outcomes random ↔ FirstFits policy codes outcomes random)) ∧
      ((∀ {α : Type} (codes : List StatusCode) (outcomes : ℕ → Except PyError α) (random : ℕ → ℚ),
          Draws random → RunRespects policy codes outcomes random) ↔
        policy.maxAttempts = 1 ∨ (policy.initialBackoff : ℤ) ≤ policy.maxBackoff) := by
  refine ⟨fun codes outcomes random draws => runRespects_iff draws initial longest, ?_, ?_⟩
  · intro every
    by_contra neither
    rw [not_or, not_le] at neither
    obtain ⟨several, above⟩ := neither
    obtain ⟨random, draws, long⟩ := exists_draws longest above
    have respects := every RETRYABLE_CODES outage random draws
    have floor := policy.attemptsFloor
    rcases (runRespects_iff draws initial longest).mp respects with last | within | ⟨_, short⟩
    · exact last (retries_outage (by omega))
    · exact absurd within (not_le.mpr above)
    · exact absurd short (not_le.mpr long)
  · intro fits _ codes outcomes random draws
    rw [runRespects_iff draws initial longest]
    rcases fits with single | within
    · refine .inl fun again => ?_
      have more := again.1
      omega
    · exact .inr (.inl within)

/-- Under the default backoffs and three attempts, the draws of a run cannot take a delay above the
cap. -/
theorem delays_respect_iff_default :
    RunRespects (.init 3) RETRYABLE_CODES outage fun _ => 3 / 4 :=
  (delays_respect_iff (.init 3) (by decide) (by decide)).2.mpr (.inr (by decide)) RETRYABLE_CODES
    outage _ fun _ => by norm_num

/-- Three attempts, with an initial backoff of twenty seconds below a cap of ten. -/
def steepPolicy : RetryPolicy ℚ := .init 3 20000000 10000000 2 false

/-- The first sleep lasts twenty seconds. -/
theorem initial_backoff_uncapped :
    0 ≤ (steepPolicy.initialBackoff : ℤ) ∧ 0 ≤ (steepPolicy.maxBackoff : ℤ) ∧ Draws (fun _ => 0) ∧
      (withRetry steepPolicy RETRYABLE_CODES outage fun _ => 0).sleeps = [20, 10] ∧
      totalSeconds steepPolicy.maxBackoff = (10 : ℚ) ∧
      ¬ RunRespects steepPolicy RETRYABLE_CODES outage fun _ => 0 := by
  have draws : Draws fun _ => 0 := fun _ => by norm_num
  have grown : steepPolicy.grow 20000000 = .ok 10000000 := by decide +kernel
  have grown' : steepPolicy.grow 10000000 = .ok 10000000 := by decide +kernel
  have plain : steepPolicy.jitter = false := rfl
  have stays : ¬ Retries steepPolicy RETRYABLE_CODES outage 3 := fun again => by
    have more : 3 < 3 := again.1
    omega
  have first : Retries steepPolicy RETRYABLE_CODES outage 1 := retries_outage (by decide)
  have second : Retries steepPolicy RETRYABLE_CODES outage 2 := retries_outage (by decide)
  refine ⟨by decide, by decide, draws, ?_, by decide +kernel, ?_⟩
  · change (retryLoop steepPolicy RETRYABLE_CODES outage _ 1 20000000 []).sleeps = _
    simp only [retryLoop_again _ first, retryLoop_again _ second, retryLoop_ends _ stays, grown,
      grown', delay_of_plain plain, totalSeconds_rat]
    norm_num
  · rw [runRespects_iff draws (by decide) (by decide)]
    rintro (last | within | ⟨jitter, _⟩)
    · exact last first
    · revert within
      decide
    · contradiction

end Run

end SeppPy
