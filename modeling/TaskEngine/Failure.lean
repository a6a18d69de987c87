/-!
# Failures

A failure is a message with the messages of its causes, the outermost first.

## Main definitions

* `Failure` — a message and its causes.
* `Failure.chain` — all messages, the outermost first.
* `Failure.detailed` — all messages in one line.
-/

namespace TaskEngine

/-- A message and the messages of its causes. -/
structure Failure where
  /-- What went wrong. -/
  message : String
  /-- Why, the nearest cause first. -/
  causes : List String
  deriving DecidableEq, Inhabited

namespace Failure

/-- A failure without causes. -/
def ofMessage (message : String) : Failure := ⟨message, []⟩

/-- The failure with the given messages, the outermost first. -/
def ofChain : List String → Failure
  | [] => ofMessage ""
  | message :: causes => ⟨message, causes⟩

/-- All messages, the outermost first. -/
def chain (failure : Failure) : List String := failure.message :: failure.causes

/-- All messages in one line. -/
def detailed (failure : Failure) : String := ": ".intercalate failure.chain

@[simp] theorem ofChain_chain (failure : Failure) : ofChain failure.chain = failure := rfl

end Failure

end TaskEngine
