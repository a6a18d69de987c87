import TaskEngine.Task.State

/-!
# Retrying

A step that fails may be tried again, as long as the options of its task allow it:
`retries` says how often, `retry_interval` how many seconds to wait before, and
`retry_interval_add` by how much the wait grows each time.  What is left of this budget
is written back into the options.  The options are read after every failure, so an
attempt may change the budget of those that follow.

## Main definitions

* `RetrySettings`, `RetrySettings.ofOptions` — the budget in the options.
* `afterFailure` — what happens between a failed attempt and the next.
* `retryWith` — attempts until one succeeds, fails for good or exhausts the budget.
-/

namespace TaskEngine

/-- A budget for retrying. -/
structure RetrySettings where
  /-- How many more attempts may be made. -/
  retries : Binary64
  /-- The wait before the next attempt, in seconds. -/
  interval : Binary64
  /-- By how much the wait grows. -/
  intervalAdd : Binary64

/-- The option that holds the number of attempts left. -/
def retriesKey : String := "retries"

/-- The option that holds the wait before the next attempt. -/
def retryIntervalKey : String := "retry_interval"

/-- The option that holds the growth of the wait. -/
def retryIntervalAddKey : String := "retry_interval_add"

namespace RetrySettings

/-- The budget in options; what is not set counts as zero. -/
def ofOptions (options : Options) : Except OptionError RetrySettings := do
  let retries ← options.number? retriesKey
  let interval ← options.number? retryIntervalKey
  let intervalAdd ← options.number? retryIntervalAddKey
  let zero := Binary64.zero false
  return ⟨retries.getD zero, interval.getD zero, intervalAdd.getD zero⟩

end RetrySettings

/-- The failure of a wait that is too long. -/
def intervalOutOfRange (interval : Binary64) : Failure :=
  Failure.ofMessage
    (s!"option '{retryIntervalKey}' is out of range: " ++ interval.render DecimalLayout.plain)

/-- The failure of a wait that has grown too long. -/
def grownIntervalOutOfRange : Failure :=
  Failure.ofMessage
    s!"option '{retryIntervalKey}' is out of range after adding '{retryIntervalAddKey}'"

/-- What is logged before a wait. -/
def sleepingNotice (interval : Binary64) : String :=
  "Sleeping for " ++ (numberValue interval).text ++ " seconds before retry..."

/-- What is logged before another attempt. -/
def retryingNotice (retries : Binary64) : String :=
  "Retrying (" ++ (numberValue retries).text ++ " attempts remaining)"

variable {σ α : Type}

/-- Waits before another attempt, if the budget asks for it, and lets the wait grow. -/
def waitForRetry (settings : RetrySettings) : Act σ Failure Unit := fun r =>
  if settings.interval.isPositive then
    match Duration.ofBinary64? settings.interval with
    | none => (.failed (intervalOutOfRange settings.interval), r)
    | some wait =>
      let r := (r.log .warning (sleepingNotice settings.interval)).sleep wait
      if settings.intervalAdd.isPositive then
        let grown := settings.interval.add settings.intervalAdd
        if grown.isFinite then
          (.done (), r.onTask (·.setOption retryIntervalKey (numberValue grown)))
        else (.failed grownIntervalOutOfRange, r)
      else (.done (), r)
  else (.done (), r)

/-- What happens between a failed attempt and the next: the failure is logged, and if it is
transient and the budget is not exhausted, the budget is reduced after a wait. -/
def afterFailure (step : StepFailure) : Act σ Failure Unit := fun r =>
  let r := r.log .warning step.message
  match RetrySettings.ofOptions r.task.options with
  | .error error => (.failed error.failure, r)
  | .ok settings =>
    if settings.retries.isPositive && step.transient then
      match waitForRetry settings r with
      | (.done (), r) =>
        let left := settings.retries.sub .one
        (.done (), (r.onTask (·.setOption retriesKey (numberValue left))).log .warning
          (retryingNotice left))
      | ended => ended
    else (.failed step.failure, r)

/-- Makes attempts, numbered from `n`, until one succeeds, fails for good or exhausts the
budget; at most `limit` of them. -/
def retryFrom (attempt : Nat → Act σ StepFailure α) : Nat → Nat → Act σ Failure α
  | 0, _, r => (.unfinished, r)
  | limit + 1, n, r => match attempt n r with
    | (.done value, r) => (.done value, r)
    | (.panicked message, r) => (.panicked message, r)
    | (.unfinished, r) => (.unfinished, r)
    | (.failed step, r) => match afterFailure step r with
      | (.done (), r) => retryFrom attempt limit (n + 1) r
      | (.failed failure, r) => (.failed failure, r)
      | (.panicked message, r) => (.panicked message, r)
      | (.unfinished, r) => (.unfinished, r)

/-- Makes attempts until one succeeds, fails for good or exhausts the budget; at most `limit`
of them. -/
def retryWith (limit : Nat) (attempt : Nat → Act σ StepFailure α) : Act σ Failure α :=
  retryFrom attempt limit 0

end TaskEngine
