import TaskEngine.Poll.Loop
import TaskEngine.Retry
import TaskEngine.Task.Lifecycle

/-!
# Bodies of tasks

What the parts of a task do is described by terms: they log, write, wait, change options
and directories, retry and poll, and construct and call further tasks, to any depth.
A term does not run by itself; `Body.run` says what it does.

## Main definitions

* `Local` — what a body may change of its task.
* `Body` — the terms.
* `Surroundings` — what a term is run in.
* `Body.run` — what a term does.
* `TaskKind` — a profile and the terms of its parts.
* `TaskKind.hook`, `TaskKind.call` — what the parts do, and a call of a task of a kind.
-/

namespace TaskEngine

/-- What a body may change of its task. -/
structure Local (σ : Type) where
  /-- The options. -/
  options : Options
  /-- The published values. -/
  returnValues : OrderedMap Value
  /-- How far the waiting has come. -/
  poll : PollState
  /-- The data of the task itself. -/
  own : σ

/-- How a task called by another one ended. -/
inductive Invocation (σ : Type)
  /-- It could not be constructed. -/
  | refused (error : TaskError)
  /-- It was called. -/
  | ended (outcome : Outcome TaskError (OrderedMap Value)) (task : TaskState) (own : σ)

/-- What a part of a task does; `σ` is the type of the data that tasks keep for themselves. -/
inductive Body (σ : Type)
  /-- Ends with a value. -/
  | done (value : Value)
  /-- Ends with a failure. -/
  | fail (step : StepFailure)
  /-- Ends with a panic. -/
  | panic (message : String)
  /-- Goes on with the value of another term. -/
  | andThen (first : Body σ) (next : Value → Body σ)
  /-- Goes on with the value or the failure of another term. -/
  | recover (first : Body σ) (next : Except StepFailure Value → Body σ)
  /-- Looks at what it works on. -/
  | see (next : Running σ → Body σ)
  /-- Changes options, published values, the state of waiting and data of its own. -/
  | edit (change : Local σ → Local σ)
  /-- Records a line. -/
  | log (level : LogLevel) (message : String)
  /-- Writes bytes to a stream. -/
  | write (stream : Stream) (bytes : Bytes)
  /-- Waits. -/
  | sleep (duration : Duration)
  /-- Goes to another directory. -/
  | changeDirectory (path : String)
  /-- Takes away a directory with everything below it, and tells whether there was one. -/
  | removeDirectory (path : String)
  /-- Opens a new hierarchy of loggers. -/
  | openLogger (name : String) (limit : Nat) (next : Logger → Body σ)
  /-- Makes attempts, which are numbered from zero. -/
  | retrying (attempt : Nat → Body σ)
  /-- Looks, which is numbered from zero, until the awaited thing has happened. -/
  | polling (look : Nat → Body σ)
  /-- Makes the attempts of its kind of task. -/
  | retryStep
  /-- Looks as its kind of task does. -/
  | pollStep
  /-- Refreshes the credentials of its org, as every kind of task can. -/
  | refreshCredentials
  /-- Constructs a further task and calls it, on a given stack or on its own. -/
  | invoke (profile : Profile σ) (part : Hook → Body σ) (own : σ) (builder : Builder)
      (stack : Option StackId) (next : Invocation σ → Body σ)

/-- Repeats a step around a start, `limit` times. -/
def iterateHook {γ β : Type} (step : (γ → β) → γ → β) (start : γ → β) : Nat → γ → β
  | 0, x => start x
  | limit + 1, x => step (iterateHook step start limit) x

/-- What a term is run in. -/
structure Surroundings (σ : Type) where
  /-- The bound on the rounds of a loop. -/
  limit : Nat
  /-- The settings of the engine. -/
  settings : EngineSettings
  /-- The profile of the kind of task. -/
  profile : Profile σ
  /-- What the parts of the kind of task do. -/
  hook : Hook → Act σ StepFailure Value

variable {σ : Type}

/-- One attempt of a kind of task; its transient failures may be ruled out from being tried
again. -/
def attemptStep (profile : Profile σ) (act : Act σ StepFailure Value) :
    Act σ StepFailure Value := fun r =>
  match act r with
  | (.failed step, r) =>
    if step.transient && !profile.retryValid r.own step.failure then (.failed step.intoPermanent, r)
    else (.failed step, r)
  | ended => ended

/-- A step without a value of its own. -/
def Act.voidly (act : Act σ Failure Unit) : Act σ StepFailure Value := fun r =>
  let (outcome, r) := act r
  ((outcome.map fun _ => Value.null).mapFailure StepFailure.ofFailure, r)

/-- What a body may change of what it works on. -/
def Running.local (r : Running σ) : Local σ :=
  ⟨r.task.options, r.task.returnValues, r.task.poll, r.own⟩

/-- Puts in place what a body has changed. -/
def Running.withLocal (r : Running σ) (changed : Local σ) : Running σ :=
  { r with
    task := { r.task with
      options := changed.options
      returnValues := changed.returnValues
      poll := changed.poll }
    own := changed.own }

/-- Goes to another directory. -/
def Act.changeDirectory (path : String) : Act σ Failure Unit := fun r =>
  match r.world.changeDirectory path with
  | .ok world => (.done (), { r with world })
  | .error reason => (.failed (Failure.ofMessage reason.message), r)

/-- Takes away a directory with everything below it, and tells whether there was one. -/
def Act.removeDirectory {ε : Type} (path : String) : Act σ ε Value := fun r =>
  let (found, directory) := r.world.directory.remove path
  (.done (.bool found), r.onWorld ({ · with directory }))

/-- Constructs a further task and calls it; what it does to the world remains. -/
def Act.invoke (settings : EngineSettings) (profile : Profile σ)
    (hook : Hook → Act σ StepFailure Value) (own : σ) (builder : Builder)
    (stack : Option StackId) : Act σ StepFailure (Invocation σ) := fun r =>
  match builder.build settings profile r.world with
  | (.error error, world) => (.done (.refused error), { r with world })
  | (.ok task, world) =>
    match callOn profile hook (stack.getD r.task.stack) ⟨world, task, own⟩ with
    | (.unfinished, inner) => (.unfinished, { r with world := inner.world })
    | (outcome, inner) =>
      (.done (.ended outcome inner.task inner.own), { r with world := inner.world })

/-- What a term does. -/
def Body.run : Body σ → Surroundings σ → Act σ StepFailure Value
  | .done value, _ => Act.done value
  | .fail step, _ => Act.fail step
  | .panic message, _ => fun r => (.panicked message, r)
  | .andThen first next, around => (first.run around).andThen fun value => (next value).run around
  | .recover first next, around => (first.run around).recover fun result => (next result).run around
  | .see next, around => fun r => (next r).run around r
  | .edit change, _ => fun r => (.done .null, r.withLocal (change r.local))
  | .log level message, _ => fun r => (.done .null, r.log level message)
  | .write stream bytes, _ => fun r => (.done .null, r.write stream bytes)
  | .sleep duration, _ => fun r => (.done .null, r.sleep duration)
  | .changeDirectory path, _ => (Act.changeDirectory path).voidly
  | .removeDirectory path, _ => Act.removeDirectory path
  | .openLogger name limit next, around => fun r =>
    let (logger, world) := r.world.newLogger name limit
    (next logger).run around { r with world }
  | .retrying attempt, around =>
    (retryWith around.limit fun n => (attempt n).run around).mapFailure StepFailure.ofFailure
  | .polling look, around => (pollWith around.limit fun n => (look n).run around).voidly
  | .retryStep, around =>
    (retryWith around.limit fun _ => attemptStep around.profile (around.hook .tryStep)).mapFailure
      StepFailure.ofFailure
  | .pollStep, around => (pollWith around.limit fun _ => around.hook .pollAction).voidly
  | .refreshCredentials, around => (refreshOwnCredentials around.profile).voidly
  | .invoke profile part own builder stack next, around =>
    let hook := iterateHook
      (fun inner hook => (part hook).run ⟨around.limit, around.settings, profile, inner⟩)
      (fun _ r => (.unfinished, r)) around.limit
    (Act.invoke around.settings profile hook own builder stack).andThen fun invocation =>
      (next invocation).run around

/-- A kind of task: what it says about itself, and what its parts do. -/
structure TaskKind (σ : Type) where
  /-- What it says about itself. -/
  profile : Profile σ
  /-- What its parts do. -/
  part : Hook → Body σ

namespace TaskKind

/-- What a part does unless a kind of task has one of its own. -/
def defaultPart (className : String) : Hook → Body σ
  | .credentials => .refreshCredentials
  | .init | .body => .done .null
  | .tryStep =>
    .fail (.permanent (Failure.ofMessage (className ++ " does not define a retryable step")))
  | .pollAction =>
    .fail (.ofFailure (Failure.ofMessage (className ++ " does not define a poll action")))

/-- What the parts of a kind of task do; a part that runs itself again is followed to a depth
of `limit`. -/
def hook (kind : TaskKind σ) (settings : EngineSettings) (limit : Nat) :
    Hook → Act σ StepFailure Value :=
  iterateHook (fun inner hook => (kind.part hook).run ⟨limit, settings, kind.profile, inner⟩)
    (fun _ r => (.unfinished, r)) limit

/-- What the parts of a kind of task are run in. -/
def surroundings (kind : TaskKind σ) (settings : EngineSettings) (limit : Nat) : Surroundings σ :=
  ⟨limit, settings, kind.profile, kind.hook settings limit⟩

/-- A call of a task of a kind. -/
def call (kind : TaskKind σ) (settings : EngineSettings) (limit : Nat) (stack : StackId) :
    Act σ TaskError (OrderedMap Value) :=
  callOn kind.profile (kind.hook settings limit) stack

end TaskKind

end TaskEngine
