import TaskEngine.Poll.State
import TaskEngine.Task.State

/-!
# Polling

A task looks again and again until something has happened elsewhere, and waits in
between.  There is no limit on the number of looks.

## Main definitions

* `pollWith` — looks until a look finds that the awaited thing has happened.
-/

namespace TaskEngine

variable {σ : Type}

/-- What is logged when the wait grows. -/
def longerIntervalNotice (interval : Nat) : String :=
  s!"Increased polling interval to {interval} seconds"

/-- Waits between two looks, and lets the wait grow if it is time. -/
def waitForPoll (r : Running σ) : Running σ :=
  let r := r.sleep (Duration.ofSeconds r.task.poll.interval)
  match r.task.poll.grow? with
  | some longer =>
    (r.onTask ({ · with poll := longer })).log .info (longerIntervalNotice longer.interval)
  | none => r

/-- Looks, numbered from `n`, until one finds that the awaited thing has happened or fails; at
most `limit` of them. -/
def pollFrom (look : Nat → Act σ StepFailure Value) : Nat → Nat → Act σ Failure Unit
  | 0, _, r => (.unfinished, r)
  | limit + 1, n, r =>
    match look n (r.onTask fun task => { task with poll := task.poll.tick }) with
    | (.failed step, r) =>
      (.failed step.failure, r.log .warning ("Poll action failed: " ++ step.message))
    | (.panicked message, r) => (.panicked message, r)
    | (.unfinished, r) => (.unfinished, r)
    | (.done _, r) =>
      if r.task.poll.complete then (.done (), r)
      else pollFrom look limit (n + 1) (waitForPoll r)

/-- Looks until one look finds that the awaited thing has happened or fails; at most `limit`
of them. -/
def pollWith (limit : Nat) (look : Nat → Act σ StepFailure Value) : Act σ Failure Unit :=
  pollFrom look limit 0

end TaskEngine
