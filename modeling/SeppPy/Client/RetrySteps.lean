import SeppPy.Client.Attempts
import SeppPy.Machine.Run

/-! # The retry loop, step by step

`RetryCall` is the coroutine of `_with_retry` between two of its `await`s: a call of its factory is
under way, the loop sleeps before the next one, or it has ended. An event is the end of what is
awaited, so other tasks may run between any two steps. The backoff grows as a sleep ends, and where
`timedelta` cannot hold it the step ends the coroutine. Followed along the outcomes that `withRetry`
is given in advance, the steps make the same calls and sleeps in the same order and end in the same
way.
-/

namespace SeppPy

open Machine

/-- `_with_retry`, suspended. -/
inductive RetryCall (F α : Type)
  | calling (attempt : ℕ) (backoff : Timedelta)
  /-- Call number `attempt` has failed. -/
  | sleeping (attempt : ℕ) (backoff : Timedelta) (delay : F)
  | ended (result : Except PyError α)
deriving DecidableEq

namespace RetryCall

inductive Event (F α : Type)
  /-- The call of the factory ends; `random` is what `random.random()` returns then. -/
  | callEnds (outcome : Except PyError α) (random : F)
  | wakes
  /-- The sleep ends with an exception. -/
  | interrupted (err : PyError)
deriving DecidableEq

variable {F α : Type} [PyFloat F] (policy : RetryPolicy F) (codes : List StatusCode)

/-- `_with_retry` before its first call. -/
def start : RetryCall F α := .calling 1 policy.initialBackoff

/-- What follows the call of the factory. -/
def callEnds (attempt : ℕ) (backoff : Timedelta) (random : F) : Except PyError α → RetryCall F α
  | .ok value => .ended (.ok value)
  | .error (.rpc err) =>
    if attempt ≥ policy.maxAttempts ∨ err.code ∉ codes then .ended (.error (.rpc err))
    else .sleeping attempt backoff (policy.delay (fun _ => random) attempt backoff)
  | .error err => .ended (.error err)

/-- What follows the sleep: the next call, unless the backoff cannot be grown. -/
def woken (attempt : ℕ) (backoff : Timedelta) : RetryCall F α :=
  match policy.grow backoff with
  | .ok next => .calling (attempt + 1) next
  | .error err => .ended (.error err)

/-- One step, up to the next `await`. -/
def step : RetryCall F α → Event F α → Option (RetryCall F α)
  | .calling attempt backoff, .callEnds outcome random =>
    some (callEnds policy codes attempt backoff random outcome)
  | .sleeping attempt backoff _, .wakes => some (woken policy attempt backoff)
  | .sleeping _ _ _, .interrupted err => some (.ended (.error err))
  | _, _ => none

/-- What the loop awaits, as far as others can see. -/
def awaited : RetryCall F α → List (RetryAction F)
  | .calling attempt _ => [.call attempt]
  | .sleeping _ _ delay => [.sleep delay]
  | .ended _ => []

/-- What the step begins to await. -/
def observe (s : RetryCall F α) (e : Event F α) : List (RetryAction F) :=
  (step policy codes s e).elim [] awaited

/-- The calls end as given, and nothing disturbs a sleep. -/
def Follows (outcomes : ℕ → Except PyError α) (random : ℕ → F) :
    RetryCall F α → Event F α → Prop
  | .calling attempt _, .callEnds outcome r => outcome = outcomes attempt ∧ r = random attempt
  | .sleeping _ _ _, .wakes => True
  | _, _ => False

/-! ## What a step can do -/

/-- Every step is one of these. -/
inductive Moves : RetryCall F α → Event F α → RetryCall F α → Prop
  | returns {attempt : ℕ} {backoff : Timedelta} (value : α) (random : F) :
    Moves (.calling attempt backoff) (.callEnds (.ok value) random) (.ended (.ok value))
  | raises {attempt : ℕ} {backoff : Timedelta} (err : PyError) (random : F)
      (last : ∀ rpc, err = .rpc rpc → attempt ≥ policy.maxAttempts ∨ rpc.code ∉ codes) :
    Moves (.calling attempt backoff) (.callEnds (.error err) random) (.ended (.error err))
  | backsOff {attempt : ℕ} {backoff : Timedelta} (err : AioRpcError) (random : F)
      (room : attempt < policy.maxAttempts) (code : err.code ∈ codes) :
    Moves (.calling attempt backoff) (.callEnds (.error (.rpc err)) random)
      (.sleeping attempt backoff (policy.delay (fun _ => random) attempt backoff))
  | wakes {attempt : ℕ} {backoff next : Timedelta} {delay : F}
      (grows : policy.grow backoff = .ok next) :
    Moves (.sleeping attempt backoff delay) .wakes (.calling (attempt + 1) next)
  | outgrows {attempt : ℕ} {backoff : Timedelta} {delay : F} (err : PyError)
      (raised : policy.grow backoff = .error err) :
    Moves (.sleeping attempt backoff delay) .wakes (.ended (.error err))
  | interrupted {attempt : ℕ} {backoff : Timedelta} {delay : F} (err : PyError) :
    Moves (.sleeping attempt backoff delay) (.interrupted err) (.ended (.error err))

variable {policy codes} {s t : RetryCall F α} {e : Event F α}

theorem moves_of_step (taken : step policy codes s e = some t) : Moves policy codes s e t := by
  cases s with
  | calling attempt backoff =>
    cases e with
    | callEnds outcome random =>
      cases taken
      cases outcome with
      | ok value => exact .returns value random
      | error err =>
        cases err with
        | rpc err =>
          simp only [callEnds]
          split
          · next last =>
            refine .raises _ random ?_
            rintro rpc ⟨⟩
            exact last
          · next again =>
            rw [not_or, not_le, not_not] at again
            exact .backsOff err random again.1 again.2
        | _ =>
          refine .raises _ random ?_
          rintro rpc ⟨⟩
    | wakes | interrupted => contradiction
  | sleeping attempt backoff delay =>
    cases e with
    | callEnds => contradiction
    | wakes =>
      cases taken
      unfold woken
      split
      · next grows => exact .wakes grows
      · next raised => exact .outgrows _ raised
    | interrupted err =>
      cases taken
      exact .interrupted err
  | ended result => contradiction

/-! ## What has been heard -/

/-- How the attempt ended, if the event is the end of one. -/
def Event.heard? : Event F α → Option (Except PyError α × F)
  | .callEnds outcome random => some (outcome, random)
  | _ => none

/-- How the attempts ended, in order. -/
def heard (es : List (Event F α)) : List (Except PyError α × F) := es.filterMap Event.heard?

omit [PyFloat F] in
@[simp]
theorem heard_append (first second : List (Event F α)) :
    heard (first ++ second) = heard first ++ heard second :=
  List.filterMap_append

/-- The number of the attempt that ends next. -/
def ahead : RetryCall F α → ℕ
  | .calling attempt _ => attempt
  | .sleeping attempt _ _ => attempt + 1
  | .ended _ => 0

/-- A sleep has ended with an exception. -/
def Interrupted (es : List (Event F α)) : Prop := ∃ err, .interrupted err ∈ es

/-- A run whose sleeps nothing interrupts follows all outcomes that begin with those it has heard. -/
theorem follows_of_heard {es : List (Event F α)} (run : Run (Steps (step policy codes)) s es t)
    (undisturbed : ¬ Interrupted es) (outcomes : ℕ → Except PyError α) (random : ℕ → F)
    (agree : ∀ n outcome r, (heard es)[n]? = some (outcome, r) →
      outcomes (s.ahead + n) = outcome ∧ random (s.ahead + n) = r) :
    Run (Guarded (Steps (step policy codes)) (Follows outcomes random)) s es t := by
  induction run with
  | nil s => exact .nil s
  | @cons s mid t e es taken rest ih =>
    have later : ¬ Interrupted es := fun ⟨err, member⟩ =>
      undisturbed ⟨err, List.mem_cons_of_mem _ member⟩
    -- past the end of an attempt the numbers count from the next one
    have shifted (outcome : Except PyError α) (r : F) (ended : e = .callEnds outcome r)
        (next : mid.ahead = s.ahead + 1) :
        ∀ n outcome' r', (heard es)[n]? = some (outcome', r') →
          outcomes (mid.ahead + n) = outcome' ∧ random (mid.ahead + n) = r' := by
      intro n outcome' r' here
      subst ended
      rw [next, Nat.add_assoc, Nat.add_comm 1 n]
      exact agree (n + 1) outcome' r' here
    have closed (result : Except PyError α) (ended : mid = .ended result) :
        ∀ n outcome r, (heard es)[n]? = some (outcome, r) →
          outcomes (mid.ahead + n) = outcome ∧ random (mid.ahead + n) = r := by
      intro n outcome r here
      subst ended
      cases rest with
      | nil => contradiction
      | cons taken => cases moves_of_step taken
    cases moves_of_step taken with
    | returns value r =>
      obtain ⟨same, same'⟩ := agree 0 (.ok value) r rfl
      exact .cons ⟨taken, same.symm, same'.symm⟩ (ih later (closed _ rfl))
    | raises err r =>
      obtain ⟨same, same'⟩ := agree 0 (.error err) r rfl
      exact .cons ⟨taken, same.symm, same'.symm⟩ (ih later (closed _ rfl))
    | backsOff err r =>
      obtain ⟨same, same'⟩ := agree 0 (.error (.rpc err)) r rfl
      exact .cons ⟨taken, same.symm, same'.symm⟩ (ih later (shifted _ r rfl rfl))
    | wakes => exact .cons ⟨taken, trivial⟩ (ih later agree)
    | outgrows err => exact .cons ⟨taken, trivial⟩ (ih later (closed _ rfl))
    | interrupted err => exact absurd ⟨err, List.mem_cons_self⟩ undisturbed

/-- A coroutine has returned just if it has just heard what it returns. -/
theorem returned_iff {es : List (Event F α)} {value : α}
    (run : Run (Steps (step policy codes)) (start policy) es s) :
    s = .ended (.ok value) ↔ ∃ before random, es = before ++ [.callEnds (.ok value) random] := by
  have last := run.history
    (fun past s => ∀ value, s = .ended (.ok value) ↔
      ∃ before random, past = before ++ [.callEnds (.ok value) random])
    (fun {past a e b} _ taken value => by
      constructor
      · rintro rfl
        cases moves_of_step taken with
        | returns value random => exact ⟨past, random, rfl⟩
      · rintro ⟨before, random, same⟩
        obtain rfl := List.singleton_inj.mp (List.append_inj' same rfl).2
        cases moves_of_step taken
        rfl)
    fun value => iff_of_false nofun fun ⟨before, random, same⟩ =>
      List.append_ne_nil_of_right_ne_nil before (List.cons_ne_nil _ _) same.symm
  exact last value

/-- One attempt is under way, or none. -/
def underWay : RetryCall F α → ℕ
  | .calling _ _ => 1
  | _ => 0

variable (policy) in
/-- The coroutine counts its attempts, up to the number that the policy allows. -/
def Numbered (past : List (Event F α)) : RetryCall F α → Prop
  | .calling attempt _ => (heard past).length + 1 = attempt ∧ attempt ≤ policy.maxAttempts
  | .sleeping attempt _ _ => (heard past).length = attempt ∧ attempt < policy.maxAttempts
  | .ended _ => (heard past).length ≤ policy.maxAttempts

theorem Numbered.step {past : List (Event F α)} (numbered : Numbered policy past s)
    (taken : step policy codes s e = some t) : Numbered policy (past ++ [e]) t := by
  simp only [Numbered, heard_append, List.length_append]
  cases moves_of_step taken with
  | returns | raises =>
    obtain ⟨count, bound⟩ := numbered
    exact count.trans_le bound
  | backsOff err random room =>
    obtain ⟨count, _⟩ := numbered
    exact ⟨count, room⟩
  | wakes =>
    obtain ⟨count, room⟩ := numbered
    exact ⟨congrArg (· + 1) count, room⟩
  | outgrows | interrupted =>
    obtain ⟨count, room⟩ := numbered
    exact count.trans_le room.le

/-- The attempts that have ended and the one under way are no more than the policy allows. -/
theorem attempts_le {es : List (Event F α)}
    (run : Run (Steps (step policy codes)) (start policy) es s) :
    (heard es).length + s.underWay ≤ policy.maxAttempts := by
  have numbered : Numbered policy ([] ++ es) s :=
    run.history (Numbered policy) (fun numbered taken => numbered.step taken)
      ⟨rfl, policy.attemptsFloor⟩
  rw [List.nil_append] at numbered
  cases s with
  | calling attempt =>
    obtain ⟨count, bound⟩ := numbered
    exact count.trans_le bound
  | sleeping attempt =>
    obtain ⟨count, room⟩ := numbered
    exact count.trans_le room.le
  | ended => exact numbered

/-! ## The steps refine the loop -/

section Refinement

variable (policy codes) (outcomes : ℕ → Except PyError α) (random : ℕ → F)

/-- What the loop still does. -/
def remaining : RetryCall F α → List (RetryAction F)
  | .calling attempt backoff => (retryActions policy codes outcomes random attempt backoff).tail
  | .sleeping attempt backoff _ =>
    match policy.grow backoff with
    | .ok next => retryActions policy codes outcomes random (attempt + 1) next
    | .error _ => []
  | .ended _ => []

/-- How the loop will end. -/
def Concludes (result : Except PyError α) : RetryCall F α → Prop
  | .calling attempt backoff => ∃ stop, Stops policy codes outcomes attempt stop ∧
    result = policy.grown (stop - attempt) backoff >>= fun _ => outcomes stop
  | .sleeping attempt backoff _ => ∃ stop, Stops policy codes outcomes (attempt + 1) stop ∧
    result = (policy.grow backoff >>= policy.grown (stop - (attempt + 1))) >>= fun _ => outcomes stop
  | .ended result' => result = result'

variable {policy codes outcomes random}

private theorem retries_of_backsOff {attempt : ℕ} {err : AioRpcError}
    (failed : outcomes attempt = .error (.rpc err)) (room : attempt < policy.maxAttempts)
    (code : err.code ∈ codes) : Retries policy codes outcomes attempt := ⟨room, err, failed, code⟩

/-- A call that ends for good is the one the loop stops at. -/
theorem stops_self {attempt stop : ℕ} (stops : Stops policy codes outcomes attempt stop)
    (last : ¬ Retries policy codes outcomes attempt) : stop = attempt := by
  rcases stops.1.1.eq_or_lt with same | more
  · exact same.symm
  · exact absurd (stops.retries le_rfl more) last

/-- One step does the next of what remains and leaves the conclusion as it is. -/
theorem follows_step {result : Except PyError α} (follows : Follows outcomes random s e)
    (taken : step policy codes s e = some t)
    (concludes : Concludes policy codes outcomes result s) :
    remaining policy codes outcomes random s =
        observe policy codes s e ++ remaining policy codes outcomes random t ∧
      Concludes policy codes outcomes result t := by
  have observed : observe policy codes s e = t.awaited := by
    rw [observe, taken, Option.elim_some]
  rw [observed]
  cases moves_of_step taken with
  | @returns attempt backoff value r =>
    obtain ⟨ended, rfl⟩ := follows
    have last : ¬ Retries policy codes outcomes attempt := by
      rintro ⟨_, err, failed, _⟩
      rw [← ended] at failed
      contradiction
    obtain ⟨stop, stops, rfl⟩ := concludes
    obtain rfl := stops_self stops last
    rw [Nat.sub_self]
    refine ⟨?_, ended.symm⟩
    simp only [remaining, awaited, retryActions_ends random last, List.tail_cons, List.append_nil]
  | @raises attempt backoff err r final =>
    obtain ⟨ended, rfl⟩ := follows
    have last : ¬ Retries policy codes outcomes attempt := by
      rintro ⟨room, rpc, failed, code⟩
      rw [← ended] at failed
      cases failed
      rcases final rpc rfl with used | other
      · omega
      · exact other code
    obtain ⟨stop, stops, rfl⟩ := concludes
    obtain rfl := stops_self stops last
    rw [Nat.sub_self]
    refine ⟨?_, ended.symm⟩
    simp only [remaining, awaited, retryActions_ends random last, List.tail_cons, List.append_nil]
  | @backsOff attempt backoff err r room code =>
    obtain ⟨ended, rfl⟩ := follows
    have again := retries_of_backsOff ended.symm room code
    obtain ⟨stop, stops, rfl⟩ := concludes
    have more : attempt < stop := by
      refine lt_of_le_of_ne stops.1.1 ?_
      rintro rfl
      exact stops.1.2 again
    have count : stop - attempt = stop - (attempt + 1) + 1 := by omega
    refine ⟨?_, stop, stops.succ more, by rw [count]; rfl⟩
    simp only [remaining, retryActions_again random again, List.tail_cons]
    rfl
  | @wakes attempt backoff next delay grows =>
    obtain ⟨stop, stops, rfl⟩ := concludes
    refine ⟨?_, stop, stops, by rw [grows]; rfl⟩
    simp only [remaining, grows]
    rw [retryActions]
    rfl
  | @outgrows attempt backoff delay err raised =>
    obtain ⟨stop, stops, rfl⟩ := concludes
    refine ⟨?_, by rw [raised]; rfl⟩
    simp only [remaining, raised, awaited, List.append_nil]
  | interrupted err => exact follows.elim

variable (policy codes outcomes random) in
/-- What the loop has done so far and what remains make up the whole. -/
structure Account (result : Except PyError α) (s : RetryCall F α)
    (seen : List (RetryAction F)) : Prop where
  whole : remaining policy codes outcomes random (start policy) =
    seen ++ remaining policy codes outcomes random s
  concludes : Concludes policy codes outcomes result s

theorem Account.step {result : Except PyError α} {seen : List (RetryAction F)}
    (account : Account policy codes outcomes random result s seen)
    (taken : Guarded (Steps (RetryCall.step policy codes)) (Follows outcomes random) s e t) :
    Account policy codes outcomes random result t (seen ++ observe policy codes s e) := by
  obtain ⟨next, concludes⟩ := follows_step taken.2 taken.1 account.concludes
  refine ⟨?_, concludes⟩
  rw [account.whole, next, List.append_assoc]

private theorem account_of_run {stop : ℕ} (stops : Stops policy codes outcomes 1 stop)
    {es : List (Event F α)}
    (run : Run (Guarded (Steps (RetryCall.step policy codes)) (Follows outcomes random))
      (start policy) es t) :
    Account policy codes outcomes random (withRetry policy codes outcomes random).result t
      (collect (RetryCall.step policy codes) (observe policy codes) (start policy) es) := by
  have begins : Account policy codes outcomes random
      (withRetry policy codes outcomes random).result (start policy) [] :=
    ⟨rfl, stop, stops, by rw [withRetry_eq random stops]⟩
  exact run.collect_invariant (Account policy codes outcomes random _)
    (fun account taken => account.step taken) begins

/-- From any call on, the steps reach the end. -/
theorem exists_run {attempt stop : ℕ} (stops : Stops policy codes outcomes attempt stop)
    (backoff : Timedelta) :
    ∃ es, Run (Guarded (Steps (step policy codes)) (Follows outcomes random))
      (.calling attempt backoff) es
      (.ended (policy.grown (stop - attempt) backoff >>= fun _ => outcomes stop)) := by
  obtain ⟨count, rfl⟩ := Nat.exists_eq_add_of_le stops.1.1
  rw [Nat.add_sub_cancel_left]
  induction count generalizing attempt backoff with
  | zero =>
    rw [Nat.add_zero] at stops
    refine ⟨[.callEnds (outcomes attempt) (random attempt)], .single ⟨?_, rfl, rfl⟩⟩
    simp only [Steps, step, Nat.add_zero, Option.some.injEq]
    unfold callEnds
    split
    · next ended => rw [ended]; rfl
    · next err ended =>
      rw [if_pos (not_not.mp (stops.1.2 ∘ (retries_iff ended).mpr)), ended]
      rfl
    · next ended => rw [ended]; rfl
  | succ count ih =>
    have more : attempt < attempt + (count + 1) := by omega
    have shift : attempt + (count + 1) = attempt + 1 + count := by omega
    have again := stops.retries le_rfl more
    have rest := stops.succ more
    rw [shift] at rest
    obtain ⟨err, ended, _⟩ := id again.2
    have failed : Guarded (Steps (step policy codes)) (Follows outcomes random)
        (.calling attempt backoff) (.callEnds (outcomes attempt) (random attempt))
        (.sleeping attempt backoff (policy.delay random attempt backoff)) := by
      refine ⟨?_, rfl, rfl⟩
      simp only [Steps, step, ended, callEnds, if_neg ((retries_iff ended).mp again)]
      rfl
    have woken : Guarded (Steps (step policy codes)) (Follows outcomes random)
        (.sleeping attempt backoff (policy.delay random attempt backoff)) .wakes
        (woken policy attempt backoff) := ⟨rfl, trivial⟩
    rw [shift, RetryPolicy.grown]
    unfold RetryCall.woken at woken
    cases grows : policy.grow backoff with
    | error err =>
      rw [grows] at woken
      exact ⟨_, .cons failed (.single woken)⟩
    | ok next =>
      rw [grows] at woken
      obtain ⟨es, run⟩ := ih next rest
      exact ⟨_, .cons failed (.cons woken run)⟩

end Refinement

variable (outcomes : ℕ → Except PyError α) (random : ℕ → F)

/-- Whenever the steps get to their end, they have done what the loop does. -/
theorem withRetry_of_run {es : List (Event F α)} {result : Except PyError α}
    (run : Run (Guarded (Steps (step policy codes)) (Follows outcomes random)) (start policy) es
      (.ended result)) :
    result = (withRetry policy codes outcomes random).result ∧
      withRetryActions policy codes outcomes random =
        .call 1 :: collect (step policy codes) (observe policy codes) (start policy) es := by
  obtain ⟨stop, _, stops⟩ := exists_stops policy codes outcomes
  have first : withRetryActions policy codes outcomes random =
      .call 1 :: remaining policy codes outcomes random (start policy) := by
    rw [withRetryActions, start, remaining, retryActions]
    rfl
  have account := account_of_run stops run
  refine ⟨account.concludes.symm, ?_⟩
  rw [first, account.whole, remaining, List.append_nil]

/-- Along given outcomes the steps of `_with_retry` can always go on to its end, and whenever they
get there they have made the calls and the sleeps of the loop in its order and end as it does. -/
theorem steps_refine_withRetry (policy : RetryPolicy F) (codes : List StatusCode)
    (outcomes : ℕ → Except PyError α) (random : ℕ → F) :
    (∃ es, Run (Guarded (Steps (step policy codes)) (Follows outcomes random)) (start policy) es
      (.ended (withRetry policy codes outcomes random).result)) ∧
    ∀ es result, Run (Guarded (Steps (step policy codes)) (Follows outcomes random)) (start policy)
        es (.ended result) →
      result = (withRetry policy codes outcomes random).result ∧
        withRetryActions policy codes outcomes random =
          .call 1 :: collect (step policy codes) (observe policy codes) (start policy) es := by
  refine ⟨?_, fun es result run => withRetry_of_run outcomes random run⟩
  obtain ⟨stop, _, stops⟩ := exists_stops policy codes outcomes
  rw [withRetry_eq random stops]
  exact exists_run stops policy.initialBackoff

end RetryCall

end SeppPy
