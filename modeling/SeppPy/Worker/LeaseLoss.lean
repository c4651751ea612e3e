import SeppPy.Worker.Disposal

/-! # The heartbeat's verdict

The heartbeat gives up only when the server says that the lease is gone, or when an `extend` failed
and the known expiry has passed. From then on no disposal call is made for the job, whatever the
handler does with the cancellation; without a verdict the outcome of the handler is disposed of.
-/

namespace SeppPy

open Machine

/-- When the heartbeat takes a failed `extend` for the loss of the lease. -/
theorem judgeExtend_eq_lost_iff {known now : ℤ} {result : Except PyError Datetime} :
    judgeExtend known now result = .lost ↔
      result = .error (.sepp .attemptMismatchError) ∨ result = .error (.sepp .jobNotFoundError) ∨
        ∃ err, result = .error (.sepp err) ∧ now ≥ known := by
  fun_cases judgeExtend known now result with
  | case1 expiry => simp
  | case2 => simp
  | case3 => simp
  | case4 err mismatch notFound passed => simp_all
  | case5 err mismatch notFound early => simp_all
  | case6 err other => simp_all

namespace JobTask

variable {autoExtend : Option AutoExtend} {t t' : JobTask}

private theorem leaseLost_cancel (t : JobTask) : t.cancel.leaseLost = t.leaseLost := by
  unfold cancel
  split <;> rfl

/-- A step keeps the flag or is the one with which the heartbeat gives up. -/
theorem leaseLost_step {e : Event} (taken : t.step autoExtend e = some t') :
    t'.leaseLost = t.leaseLost ∨ t'.leaseLost = true ∧
      ∃ result judgedAt now, e = .heartbeatExtends result judgedAt now ∧
        judgeExtend t.knownExpiryMs judgedAt result = .lost := by
  cases moves_of_step taken with
  | raisesInPlain => exact .inl (concluded_endPlain _ _).leaseLost
  | endsPlain => exact .inl (concluded_endPlain t _).leaseLost
  | resumesReap pending => exact .inl (concluded_resumeReap t pending).leaseLost
  | givesUp result judgedAt now _ _ judged => exact .inr ⟨rfl, result, judgedAt, now, rfl, judged⟩
  | cancel => exact .inl (leaseLost_cancel t)
  | _ => exact .inl rfl

/-- A lost lease stays lost. -/
theorem leaseLost_run {es : List Event} (run : Run (Steps (step autoExtend)) t es t')
    (lost : t.leaseLost = true) : t'.leaseLost = true := by
  have keeps {a e b} (lost : a.leaseLost = true) (taken : Steps (step autoExtend) a e b) :
      b.leaseLost = true := by
    rcases leaseLost_step taken with same | ⟨lost', _⟩
    · exact same.trans lost
    · exact lost'
  exact run.invariant (fun t => t.leaseLost = true) keeps lost

/-- In auto-extend mode the heartbeat's verdict decides: after it no disposal call is made, without
it the end of a coroutine function's handler is what `_dispose` gets. The verdict is given only on
a failed `extend` that tells of the loss or comes after the known expiry. Whenever
`_run_with_auto_extend` is left, both tasks it created have finished. -/
theorem heartbeat_decides (cfg : AutoExtend) (job : Job) (es : List Event) (t : JobTask)
    (run : Run (Steps (step (some cfg))) (spawned job) es t) :
    (t.leaseLost = true → ∀ later t', Run (Steps (step (some cfg))) t later t' → t'.calls = []) ∧
    ((∀ e ∈ es, e ≠ .cancel) → t.leaseLost = false → t.Ended →
      ∀ handler how error, t.selected = some handler → handler.coroutineFunction = true →
        t.handlerEnd = some how → how.verdict = some error → t.disposed = some error) ∧
    (∀ e t', t.step (some cfg) e = some t' → t.leaseLost = false → t'.leaseLost = true →
      ∃ result judgedAt now, e = .heartbeatExtends result judgedAt now ∧
        (result = .error (.sepp .attemptMismatchError) ∨
          result = .error (.sepp .jobNotFoundError) ∨
          ∃ err, result = .error (.sepp err) ∧ judgedAt ≥ t.knownExpiryMs)) ∧
    (t.handlerTask ≠ .absent → t.pc = .disposing ∨ t.Ended →
      (∃ how, t.handlerTask = .done how) ∧ t.heartbeat = .done) := by
  have reached := reached_of_run False False.elim run
  refine ⟨fun lost later t' further => ?_, fun silent kept ended handler how error selected
    coroutine ended_how verdict => ?_, fun e t' taken kept lost => ?_, fun created out => ?_⟩
  · exact (reached_of_run False False.elim (run.append further)).phase.calls_of_lost
      (leaseLost_run further lost)
  · have quiet := reached_of_run True (fun _ => silent) run
    rcases quiet.phase.disposed_of_quiet trivial ended kept with
      unhandled | ⟨error', disposed⟩ | ⟨_, ⟨how', ended', none⟩ | early⟩
    · exact absurd (unhandled.handlerEnd.symm.trans ended_how) (by simp)
    · obtain ⟨how', ended', verdict'⟩ := disposed.handlerEnd
      obtain rfl : how' = how := Option.some.inj (ended'.symm.trans ended_how)
      rw [disposed.disposed, ← verdict', verdict]
    · obtain rfl : how' = how := Option.some.inj (ended'.symm.trans ended_how)
      exact absurd (none.symm.trans verdict) (by simp)
    · obtain ⟨handler', _, selected', ordinary, _⟩ := early
      obtain rfl : handler' = handler := Option.some.inj (selected'.symm.trans selected)
      exact absurd (ordinary.symm.trans coroutine) Bool.false_ne_true
  · rcases leaseLost_step taken with same | ⟨_, result, judgedAt, now, rfl, judged⟩
    · exact absurd (kept.symm.trans (same.symm.trans lost)) Bool.false_ne_true
    · exact ⟨result, judgedAt, now, rfl, judgeExtend_eq_lost_iff.mp judged⟩
  · rcases reached.phase.settled out with ⟨absent, _⟩ | ⟨how, done, reaped⟩
    · exact absurd absent created
    · exact ⟨⟨how, done⟩, reaped⟩

/-- A handler that swallows the cancellation and returns does not get its job acked. -/
theorem heartbeat_decides_swallowed :
    ∃ t, Run (Steps (step (some ⟨none, 30000000⟩))) (spawned emailJob)
        [.start catchAllOnly .awaitable, .heartbeatStarts 0, .heartbeatWakes,
          .heartbeatExtends (.error (.sepp .attemptMismatchError)) 10000 10000,
          .handlerEnds .returned, .resume, .resume] t ∧
      t.Ended ∧ t.handlerEnd = some .returned ∧
      ∀ later t', Run (Steps (step (some ⟨none, 30000000⟩))) t later t' → t'.calls = [] := by
  obtain ⟨t, found, lost, ended, returned⟩ : ∃ t, run? (step (some ⟨none, 30000000⟩))
      (spawned emailJob) [.start catchAllOnly .awaitable, .heartbeatStarts 0, .heartbeatWakes,
        .heartbeatExtends (.error (.sepp .attemptMismatchError)) 10000 10000,
        .handlerEnds .returned, .resume, .resume] = some t ∧
      t.leaseLost = true ∧ t.Ended ∧ t.handlerEnd = some .returned :=
    ⟨_, rfl, rfl, ⟨_, rfl⟩, rfl⟩
  have run := (run?_eq_some_iff _ _ _ _).mp found
  exact ⟨t, run, ended, returned, (heartbeat_decides _ _ _ _ run).1 lost⟩

end JobTask

end SeppPy
