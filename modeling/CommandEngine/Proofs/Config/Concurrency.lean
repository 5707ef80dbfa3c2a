import Mathlib
import CommandEngine.Config.Decode

/-!
# Worker counts that yield a scheduler

A scheduler is made for a worker count from one to `maxWorkers`: zero is refused as an invalid argument, and a count
beyond `maxWorkers` aborts, since no semaphore holds that many permits (`Scheduler.new_eq_ok_iff`,
`Scheduler.new_eq_panic_iff`). Validation of a configuration refuses a count of zero and nothing else, so a validated
configuration yields a scheduler with its count and its policy exactly when the count is at most `maxWorkers`, and
aborts beyond it (`Scheduler.fromConfig_of_validated`).

The reader takes any count below 2^64, so such an abort is within reach of a configuration text: one that asks for
2^61 workers reads, passes validation, and aborts when its scheduler is made
(`Scheduler.fromConfig_aborts_past_maxWorkers`).
-/

namespace CommandEngine.Graph.Scheduler

open Config

/-- The abort of a scheduler asked for more workers than a semaphore holds. -/
def tooManyWorkers : String :=
  "a semaphore may not have more than MAX_PERMITS permits (" ++ toString maxWorkers ++ ")"

/-- Making a scheduler refuses zero workers, and only zero. -/
theorem new_eq_error_iff (n : Nat) :
    new n = .error (.invalidArgument "scheduler concurrency must be >= 1 (got 0)") ↔ n = 0 := by
  by_cases h0 : n = 0
  · simp [new, h0]
  · by_cases hmax : maxWorkers < n <;> simp [new, h0, hmax]

/-- Making a scheduler gives one with `n` workers and the default policy exactly for `n` from one to `maxWorkers`. -/
theorem new_eq_ok_iff (n : Nat) : new n = .ok { workers := .fixed n } ↔ 1 ≤ n ∧ n ≤ maxWorkers := by
  by_cases h0 : n = 0
  · simp [new, h0]
  · by_cases hmax : maxWorkers < n
    · simp [new, h0, hmax]
    · simp only [new, h0, hmax, if_false, true_iff]
      omega

/-- Making a scheduler aborts exactly for more than `maxWorkers` workers. -/
theorem new_eq_panic_iff (n : Nat) : new n = .panic tooManyWorkers ↔ maxWorkers < n := by
  by_cases h0 : n = 0
  · simp [new, h0]
  · by_cases hmax : maxWorkers < n
    · rw [new, if_neg h0, if_pos hmax]
      exact iff_of_true rfl hmax
    · rw [new, if_neg h0, if_neg hmax]
      simp [hmax]

/-- A validated configuration that sets `n` workers yields a scheduler with `n` workers and the configured policy when
`n` is at most `maxWorkers`, and aborts otherwise; it is never refused. -/
theorem fromConfig_of_validated {c : EngineConfig} (hv : c.validate = .ok ()) {n : Nat}
    (hn : c.scheduler.concurrency = some n) :
    fromConfig c.scheduler =
      if n ≤ maxWorkers then .ok { workers := .fixed n, policy := c.scheduler.failurePolicy }
      else .panic tooManyWorkers := by
  -- validation refuses zero workers, so only the bound of the semaphore is left
  have hpos : n ≠ 0 := by
    rintro rfl
    simp [EngineConfig.validate, hn] at hv
  by_cases hle : n ≤ maxWorkers
  · rw [if_pos hle]
    simp [fromConfig, hn, new, hpos, not_lt.mpr hle, withPolicy]
  · rw [if_neg hle, fromConfig, hn]
    simp only [new, if_neg hpos, if_pos (lt_of_not_ge hle)]
    rfl

/-- Exactly the worker counts from one to `maxWorkers` yield a scheduler: zero is refused, and beyond `maxWorkers` the
scheduler aborts, also when a validated configuration asks for the count. -/
theorem scheduler_made_iff_within_maxWorkers (n : Nat) :
    (new n = .error (.invalidArgument "scheduler concurrency must be >= 1 (got 0)") ↔ n = 0) ∧
    (new n = .ok { workers := .fixed n } ↔ 1 ≤ n ∧ n ≤ maxWorkers) ∧
    (new n = .panic tooManyWorkers ↔ maxWorkers < n) ∧
    ∀ c : EngineConfig, c.validate = .ok () → c.scheduler.concurrency = some n →
      fromConfig c.scheduler =
        if n ≤ maxWorkers then .ok { workers := .fixed n, policy := c.scheduler.failurePolicy }
        else .panic tooManyWorkers :=
  ⟨new_eq_error_iff n, new_eq_ok_iff n, new_eq_panic_iff n, fun _ hv hn => fromConfig_of_validated hv hn⟩

/-- A configuration text that asks for 2^61 workers reads and passes validation, and making its scheduler aborts. -/
theorem fromConfig_aborts_past_maxWorkers :
    ∃ c, parse "[scheduler]\nconcurrency = 2305843009213693952\n" = .ok c ∧ c.validate = .ok () ∧
      c.scheduler.concurrency = some 2305843009213693952 ∧ fromConfig c.scheduler = .panic tooManyWorkers := by
  have hread : (parse "[scheduler]\nconcurrency = 2305843009213693952\n").toOption.map (·.scheduler.concurrency) =
      some (some 2305843009213693952) := by
    decide +kernel
  cases hp : parse "[scheduler]\nconcurrency = 2305843009213693952\n" with
  | error e =>
    rw [hp] at hread
    cases hread
  | ok c =>
    rw [hp] at hread
    have hn : c.scheduler.concurrency = some 2305843009213693952 := by
      simpa [Except.toOption] using hread
    refine ⟨c, rfl, by simp [EngineConfig.validate, hn], hn, ?_⟩
    rw [fromConfig, hn]
    simp only [new, if_neg (by decide : (2305843009213693952 : Nat) ≠ 0),
      if_pos (by decide : maxWorkers < 2305843009213693952)]
    rfl

end CommandEngine.Graph.Scheduler
