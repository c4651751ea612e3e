import SeppPy.Types
import SeppPy.Data.Except

/-! # Configuration of a worker

`Worker.init` follows the constructor: the concurrency limit is clamped to at least one, an
explicit heartbeat interval to at least a millisecond. The options of each reserve call ask for no
more jobs than there is free capacity.
-/

namespace SeppPy

/-- `_AutoExtend`: no explicit interval means one derived from the granted lease. -/
structure AutoExtend where
  explicitInterval : Option Timedelta
  extendBy : Timedelta
deriving DecidableEq, Repr

/-- The arguments of `Worker(...)`. -/
structure WorkerArgs where
  queues : List String
  leaseDuration : Timedelta
  waitTimeout : Option Timedelta := none
  maxJobs : Option ℤ := none
  maxInFlight : ℤ := 16
  reserveErrorBackoff : Timedelta := 1000000
  autoExtend : Bool := false
  autoExtendInterval : Option Timedelta := none
  workerId : Option String := none
deriving DecidableEq, Repr

/-- What the constructor keeps. -/
structure Worker where
  opts : ReserveOptions
  maxInFlight : ℤ
  reserveErrorBackoff : Timedelta
  autoExtend : Option AutoExtend
  maxInFlightPositive : 1 ≤ maxInFlight
deriving DecidableEq

namespace Worker

def autoExtendOf (args : WorkerArgs) : Option AutoExtend :=
  if args.autoExtend = true ∨ args.autoExtendInterval.isSome then
    some ⟨args.autoExtendInterval.map fun interval => max interval (.ofMillis 1), args.leaseDuration⟩
  else none

/-- `ReserveOptions(...)` with the arguments that the constructor passes on. -/
def reserveOptsOf (args : WorkerArgs) (workerId : String) : Except PyError ReserveOptions :=
  let build (waitTimeout : Timedelta) :=
    ReserveOptions.init args.queues args.leaseDuration waitTimeout (some workerId) args.maxJobs
  match args.waitTimeout with
  | some waitTimeout =>
    if waitTimeout ≤ 0 then .error (.valueError "wait_timeout must be at least 1ms")
    else build waitTimeout
  | none => build DEFAULT_WAIT_TIMEOUT

/-- `Worker(...)`; `defaultWorkerId` is what `_default_worker_id()` returns. -/
def init (defaultWorkerId : String) (args : WorkerArgs) : Except PyError Worker := do
  let opts ← reserveOptsOf args (args.workerId.getD defaultWorkerId)
  return {
    opts
    maxInFlight := max 1 args.maxInFlight
    reserveErrorBackoff := args.reserveErrorBackoff
    autoExtend := autoExtendOf args
    maxInFlightPositive := le_max_left 1 args.maxInFlight }

/-- The concurrency limit is clamped to at least one. -/
theorem maxInFlight_of_init {defaultWorkerId : String} {args : WorkerArgs} {worker : Worker}
    (made : init defaultWorkerId args = .ok worker) : worker.maxInFlight = max 1 args.maxInFlight := by
  unfold init at made
  cases found : reserveOptsOf args (args.workerId.getD defaultWorkerId) with
  | error err =>
    rw [found] at made
    contradiction
  | ok opts =>
    rw [found] at made
    exact (congrArg maxInFlight (Except.ok.inj made)).symm

/-- The options keep the configured number of jobs. -/
theorem maxJobs_of_init {defaultWorkerId : String} {args : WorkerArgs} {worker : Worker}
    (made : init defaultWorkerId args = .ok worker) : worker.opts.maxJobs = args.maxJobs := by
  have kept {waitTimeout : Timedelta} {workerId : String} {opts : ReserveOptions}
      (built : ReserveOptions.init args.queues args.leaseDuration waitTimeout (some workerId)
        args.maxJobs = .ok opts) : opts.maxJobs = args.maxJobs := by
    unfold ReserveOptions.init at built
    split_ifs at built
    cases built
    rfl
  obtain ⟨opts, found, same⟩ := Except.bind_eq_ok_iff.mp made
  obtain rfl := Except.ok.inj same
  unfold reserveOptsOf at found
  split at found
  · split_ifs at found
    exact kept found
  · exact kept found

/-- `_reserve_opts_with_capacity`: never ask for more jobs than the free capacity. -/
def reserveOptsWithCapacity (worker : Worker) (inFlight : ℤ) : Except PyError ReserveOptions :=
  let capacity := max 1 (worker.maxInFlight - inFlight)
  let maxJobs := match worker.opts.maxJobs with
    | some n => min n capacity
    | none => capacity
  worker.opts.replaceMaxJobs maxJobs

/-- The options of a reserve call are always valid, and ask for at least one job, for no more than
there is capacity for and for no more than the worker was configured to. -/
theorem exists_reserveOptsWithCapacity (worker : Worker) (inFlight : ℤ) :
    ∃ opts n, worker.reserveOptsWithCapacity inFlight = .ok opts ∧ opts.maxJobs = some n ∧
      1 ≤ n ∧ n ≤ max 1 (worker.maxInFlight - inFlight) ∧ ∀ m ∈ worker.opts.maxJobs, n ≤ m := by
  have build (n : ℤ) (positive : 1 ≤ n) : ∃ opts, worker.opts.replaceMaxJobs n = .ok opts ∧
      opts.maxJobs = some n := ⟨_, dif_pos positive, rfl⟩
  have capacity := le_max_left 1 (worker.maxInFlight - inFlight)
  unfold reserveOptsWithCapacity
  split
  · next n found =>
    have positive := le_min (worker.opts.maxJobsPositive n found) capacity
    obtain ⟨opts, built, asks⟩ := build _ positive
    refine ⟨opts, _, built, asks, positive, min_le_right _ _, fun m member => ?_⟩
    obtain rfl := Option.some.inj (found.symm.trans member)
    exact min_le_left _ _
  · next none =>
    obtain ⟨opts, built, asks⟩ := build _ capacity
    refine ⟨opts, _, built, asks, capacity, le_rfl, fun m member => ?_⟩
    rw [none] at member
    contradiction

/-- A worker that runs one job at a time. -/
def soleArgs : WorkerArgs where
  queues := ["emails"]
  leaseDuration := 30000000
  maxInFlight := 1

/-- What the constructor makes of `soleArgs`. -/
def sole : Worker where
  opts := { emailOptions with
    workerId := some "worker"
    workerIdNonempty := by decide }
  maxInFlight := 1
  reserveErrorBackoff := 1000000
  autoExtend := none
  maxInFlightPositive := le_rfl

/-- A worker that runs two jobs at a time. -/
def pairArgs : WorkerArgs := { soleArgs with maxInFlight := 2 }

/-- What the constructor makes of `pairArgs`. -/
def pair : Worker := { sole with maxInFlight := 2, maxInFlightPositive := by decide }

end Worker

/-- `_EARLY_EMPTY_THRESHOLD`. -/
def EARLY_EMPTY_THRESHOLD : Timedelta := .ofMillis 100

/-- `_EARLY_EMPTY_BACKOFF`. -/
def EARLY_EMPTY_BACKOFF : Timedelta := .ofMillis 250

/-- `elapsed < min(_EARLY_EMPTY_THRESHOLD, opts.wait_timeout / 2)`. -/
def earlyEmpty (opts : ReserveOptions) (elapsed : Timedelta) : Bool :=
  decide (elapsed < min EARLY_EMPTY_THRESHOLD (opts.waitTimeout.divide 2))

end SeppPy
