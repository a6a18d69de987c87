import TaskEngine.Task.Builder

/-!
# The life of a task

A call of a task goes through five stages: the org has to be there if the kind of task
needs one, its credentials are refreshed, the task is initialised, the directory of
the project is entered, and the body runs.  The first stage that fails ends the call.
From the fourth stage on the task has a frame on a stack; the frame, the directory and
the capturing of output are undone however the body ends.

## Main definitions

* `Hook` — the parts that a kind of task may bring along.
* `callOn` — a call of a task on a stack.
* `refreshOwnCredentials` — the refreshing of credentials unless a kind of task has its own.
-/

namespace TaskEngine

/-- The parts that a kind of task may bring along. -/
inductive Hook
  /-- Refreshes the credentials. -/
  | credentials
  /-- Initialises the task. -/
  | init
  /-- Does the work. -/
  | body
  /-- Makes one attempt at a step. -/
  | tryStep
  /-- Looks once whether something has happened. -/
  | pollAction
  deriving DecidableEq

variable {σ ε α : Type}

/-- Refreshes the credentials of the org of a task, if its kind needs one. -/
def refreshOwnCredentials (profile : Profile σ) : Act σ Failure Unit := fun r =>
  if profile.requiresOrg then match r.task.org with
    | some org =>
      let (result, world) :=
        r.world.refreshCredentials org r.task.project.keychain r.task.logger
      (.ofExcept result, { r with world })
    | none => (.done (), r)
  else (.done (), r)

/-- The lines that announce a task; its org is named unless a flow has done so. -/
def banner (profile : Profile σ) (r : Running σ) : List String :=
  let session := if profile.requiresOrg && r.task.flow.isNone then
    match r.task.org.bind r.world.orgs.get? with
    | some org => ["As user: " ++ org.username.getD "", "In org: " ++ org.orgId.getD ""]
    | none => []
  else []
  ["Beginning task: " ++ r.task.className] ++ session ++ [""]

/-- Announces a task. -/
def announce (profile : Profile σ) (r : Running σ) : Running σ :=
  (banner profile r).foldl (fun r message => r.log .info message) r

/-- Runs a step with the frame of the task on a stack. -/
def withFrame (stack : StackId) (act : Act σ ε α) : Act σ ε α := fun r =>
  act.releasing (·.onWorld (·.popFrame stack))
    { r with
      task := { r.task with stack }
      world := r.world.pushFrame stack r.task.frame }

/-- Runs a step in the directory of the project. -/
def withDirectory (act : Act σ TaskError α) : Act σ TaskError α := fun r =>
  match r.world.directory.enter r.task.project.repoRoot with
  | .error error => (.failed (.workingDirectory error.path error.reason), r)
  | .ok (former, directory) =>
    act.releasing (·.onWorld fun world => { world with directory := world.directory.leave former })
      { r with
        task := { r.task with workingPath := some former }
        world := { r.world with directory } }

/-- Closes the capture scope of a task. -/
def closeCapture (r : Running σ) : Running σ :=
  let (capture, lines) := r.task.capture.leave
  { r with
    task := { r.task with capture }
    world := r.world.logCaptured r.task.logger lines }

/-- Runs a step with a capture scope open. -/
def withCapture (act : Act σ ε α) : Act σ ε α := fun r =>
  act.releasing closeCapture (r.onTask fun task => { task with capture := task.capture.enter })

/-- Announces a task and runs its body; the value of the body becomes the result. -/
def runBody (profile : Profile σ) (body : Act σ StepFailure Value) :
    Act σ TaskError (OrderedMap Value) := fun r =>
  match body (announce profile r) with
  | (.done value, r) => (.done r.task.returnValues, r.onTask ({ · with result := some value }))
  | (.failed step, r) => (.failed (.execution step.failure), r)
  | (.panicked message, r) => (.panicked message, r)
  | (.unfinished, r) => (.unfinished, r)

/-- The last two stages of a call, with everything undone that they set up. -/
def runInScope (profile : Profile σ) (stack : StackId) (body : Act σ StepFailure Value) :
    Act σ TaskError (OrderedMap Value) :=
  withFrame stack (withDirectory (withCapture (runBody profile body)))

/-- A call of a task on a stack, with the parts of its kind. -/
def callOn (profile : Profile σ) (hook : Hook → Act σ StepFailure Value) (stack : StackId) :
    Act σ TaskError (OrderedMap Value) := fun r =>
  if profile.requiresOrg && r.task.org.isNone then (.failed .requiresOrg, r)
  else
    (((hook .credentials).mapFailure fun step => TaskError.credentials step.failure).andThen
      fun _ => ((hook .init).mapFailure fun step => TaskError.execution step.failure).andThen
        fun _ => runInScope profile stack (hook .body)) r

end TaskEngine
