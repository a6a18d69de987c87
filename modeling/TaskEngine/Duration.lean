import TaskEngine.Binary64.Basic

/-!
# Durations

## Main definitions

* `Duration` — whole seconds and billionths of a second.
* `Duration.ofBinary64?` — the duration nearest to a number of seconds.
-/

namespace TaskEngine

/-- A length of time. -/
structure Duration where
  /-- Whole seconds. -/
  seconds : Nat
  /-- Billionths of a second beyond. -/
  nanos : Nat
  deriving DecidableEq

namespace Duration

/-- How many billionths make a second. -/
def nanosPerSecond : Nat := 1000000000

/-- The duration of a number of billionths of a second. -/
def ofNanos (nanos : Nat) : Duration := ⟨nanos / nanosPerSecond, nanos % nanosPerSecond⟩

/-- The duration of a number of seconds. -/
def ofSeconds (seconds : Nat) : Duration := ⟨seconds, 0⟩

/-- The duration of a number of thousandths of a second. -/
def ofMillis (millis : Nat) : Duration := ofNanos (millis * 1000000)

/-- The duration nearest to a number of seconds that is not negative, a tie going to the even
billionth; from `2 ^ 64` seconds on there is none. -/
def ofBinary64? (x : Binary64) : Option Duration :=
  if !x.isFinite || (x.isNegative && !x.isZero) then none
  else
    let duration := ofNanos (roundHalfEven (x.units * nanosPerSecond) (twoTo Binary64.scale))
    if duration.seconds < 0x10000000000000000 then some duration else none

end Duration

end TaskEngine
