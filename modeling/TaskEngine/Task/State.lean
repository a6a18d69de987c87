import TaskEngine.Poll.State
import TaskEngine.Project.Config
import TaskEngine.Task.Error
import TaskEngine.World

/-!
# The state of a task

A task consists of what was settled when it was constructed and of what its body may
change: options, return values and the state of waiting.  What a step of a task
does to its state, to data of its own and to the world is an `Act`.

## Main definitions

* `TaskState`, `TaskState.frame` — the state of a task.
* `Flow` — the flow that a task is part of.
* `Outcome` — how a step ends: with a value, a failure or a panic, or not within its bound.
* `Running`, `Act` — what a step works on, and what it does.
-/

namespace TaskEngine

/-- The flow that a task is part of. -/
structure Flow where
  /-- The name of the flow. -/
  name : String
  /-- The logger under which its tasks have theirs. -/
  logger : Logger

/-- The state of a task. -/
structure TaskState where
  /-- The number of the task. -/
  id : Nat
  /-- The name of its kind. -/
  className : String
  /-- The name of the task. -/
  name : Option String
  /-- The number of its step. -/
  stepNum : Option String
  /-- The project it works on. -/
  project : Project
  /-- Its configuration. -/
  config : TaskConfig
  /-- The org attached to it. -/
  org : Option OrgId
  /-- The flow it is part of. -/
  flow : Option Flow
  /-- Its logger. -/
  logger : Logger
  /-- Whether it logs its options. -/
  debugMode : Bool
  /-- How it waits. -/
  sleeper : Sleeper
  /-- Its resolved options. -/
  options : Options
  /-- The values it publishes. -/
  returnValues : OrderedMap Value
  /-- How far its waiting has come. -/
  poll : PollState
  /-- The value of the last body that succeeded. -/
  result : Option Value
  /-- The directory that was current when its body was last entered. -/
  workingPath : Option Path
  /-- The capturing of its output. -/
  capture : Capture
  /-- The stack it was last called on. -/
  stack : StackId

namespace TaskState

/-- The frame that describes the task on a stack. -/
def frame (task : TaskState) : Frame where
  taskId := task.id
  className := task.className
  name := task.name
  stepNum := task.stepNum
  logger := task.logger.name

/-- Gives an option a value. -/
def setOption (task : TaskState) (key : String) (value : Value) : TaskState :=
  { task with options := task.options.insert key value }

end TaskState

/-! ### Acts -/

/-- How a step ends. -/
inductive Outcome (ε α : Type)
  /-- With a value. -/
  | done (value : α)
  /-- With a failure. -/
  | failed (error : ε)
  /-- With a panic, which no step in between can hold up. -/
  | panicked (message : String)
  /-- Not within the bound on the rounds of loops. -/
  | unfinished

namespace Outcome

variable {ε ε' α β : Type}

/-- The outcome with another value. -/
def map (f : α → β) : Outcome ε α → Outcome ε β
  | done value => done (f value)
  | failed error => failed error
  | panicked message => panicked message
  | unfinished => unfinished

/-- The outcome with another failure. -/
def mapFailure (f : ε → ε') : Outcome ε α → Outcome ε' α
  | done value => done value
  | failed error => failed (f error)
  | panicked message => panicked message
  | unfinished => unfinished

/-- The outcome of a step that can only succeed or fail. -/
def ofExcept : Except ε α → Outcome ε α
  | .ok value => done value
  | .error error => failed error

end Outcome

/-- What a step of a task works on; `σ` is the type of the data that the task keeps for
itself. -/
structure Running (σ : Type) where
  /-- What all tasks share. -/
  world : World
  /-- The state of the task. -/
  task : TaskState
  /-- The data of the task itself. -/
  own : σ

/-- What a step of a task does. -/
def Act (σ ε α : Type) : Type := Running σ → Outcome ε α × Running σ

namespace Act

variable {σ ε ε' α β : Type}

/-- Ends with a value. -/
def done (value : α) : Act σ ε α := fun r => (.done value, r)

/-- Ends with a failure. -/
def fail (error : ε) : Act σ ε α := fun r => (.failed error, r)

/-- Goes on with the value of a step. -/
def andThen (first : Act σ ε α) (next : α → Act σ ε β) : Act σ ε β := fun r =>
  match first r with
  | (.done value, r) => next value r
  | (.failed error, r) => (.failed error, r)
  | (.panicked message, r) => (.panicked message, r)
  | (.unfinished, r) => (.unfinished, r)

/-- Goes on with the value or the failure of a step. -/
def recover (first : Act σ ε α) (next : Except ε α → Act σ ε' β) : Act σ ε' β := fun r =>
  match first r with
  | (.done value, r) => next (.ok value) r
  | (.failed error, r) => next (.error error) r
  | (.panicked message, r) => (.panicked message, r)
  | (.unfinished, r) => (.unfinished, r)

/-- The step with its failure seen another way. -/
def mapFailure (f : ε → ε') (act : Act σ ε α) : Act σ ε' α := fun r =>
  let (outcome, r) := act r
  (outcome.mapFailure f, r)

/-- Changes what the step works on. -/
def edit (change : Running σ → Running σ) : Act σ ε Unit := fun r => (.done (), change r)

/-- Does a step and then, however it ends, something that cannot fail. -/
def releasing (act : Act σ ε α) (release : Running σ → Running σ) : Act σ ε α := fun r =>
  let (outcome, r) := act r
  (outcome, release r)

instance : Monad (Act σ ε) where
  pure := done
  bind := andThen

end Act

namespace Running

variable {σ : Type}

/-- Changes what all tasks share. -/
def onWorld (r : Running σ) (change : World → World) : Running σ :=
  { r with world := change r.world }

/-- Changes the state of the task. -/
def onTask (r : Running σ) (change : TaskState → TaskState) : Running σ :=
  { r with task := change r.task }

/-- Changes the data of the task itself. -/
def onOwn (r : Running σ) (change : σ → σ) : Running σ := { r with own := change r.own }

/-- Records a line of the task. -/
def log (r : Running σ) (level : LogLevel) (message : String) : Running σ :=
  r.onWorld (·.log r.task.logger level message)

/-- Waits. -/
def sleep (r : Running σ) (duration : Duration) : Running σ :=
  r.onWorld (·.sleep r.task.sleeper duration)

/-- Writes bytes to a stream of the task. -/
def write (r : Running σ) (stream : Stream) (bytes : Bytes) : Running σ :=
  let (capture, transcript) := r.task.capture.write stream bytes
  { r with
    task := { r.task with capture }
    world := r.world.accept r.task.logger transcript }

end Running

end TaskEngine
