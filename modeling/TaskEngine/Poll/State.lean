/-!
# Poll state

While a task waits for something to happen elsewhere, it looks again and again.  The
waits between grow: whenever the number of looks passes the next multiple of three,
by one second.

## Main definitions

* `PollState` — how far the waiting has come.
* `PollState.tick` — one more look.
* `PollState.grow?` — the state with a longer wait, if it is time for one.
-/

namespace TaskEngine

/-- How far the waiting has come. -/
structure PollState where
  /-- Whether the awaited thing has happened. -/
  complete : Bool
  /-- The number of looks. -/
  count : Nat
  /-- How often the wait has grown. -/
  intervalLevel : Nat
  /-- The wait between two looks, in seconds. -/
  interval : Nat
  deriving DecidableEq

namespace PollState

/-- Before the first look. -/
def initial : PollState := ⟨false, 0, 0, 1⟩

instance : Inhabited PollState := ⟨initial⟩

/-- One more look. -/
def tick (state : PollState) : PollState := { state with count := state.count + 1 }

/-- The awaited thing has happened. -/
def markComplete (state : PollState) : PollState := { state with complete := true }

/-- The state with a longer wait, if the number of looks has passed the next multiple of
three. -/
def grow? (state : PollState) : Option PollState :=
  if state.count / 3 > state.intervalLevel then
    some { state with
      intervalLevel := state.intervalLevel + 1
      interval := state.interval + 1 }
  else none

/-- The state with a longer wait if it is time for one. -/
def grow (state : PollState) : PollState := state.grow?.getD state

end PollState

end TaskEngine
