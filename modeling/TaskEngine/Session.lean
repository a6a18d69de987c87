import TaskEngine.Script.Compile

/-!
# Sessions

A session keeps projects, orgs, loggers, flows, stacks and scripted tasks by name, and
the world that they share.

## Main definitions

* `Names` — things by name; a name that is given again stands for the latest thing.
* `Session` — what a session keeps.
* `Session.build`, `Session.call`, `Session.run` — constructs a task, calls it, or runs actions
  on it outside of a call.
* `Report` — what can be seen of a task.
-/

namespace TaskEngine

/-- Things by name, the latest first. -/
abbrev Names (α : Type) := List (String × α)

/-- A scripted task that has been constructed. -/
structure ScriptedTask where
  /-- What its parts do. -/
  script : TaskScript
  /-- Its state. -/
  state : TaskState
  /-- What it keeps for itself. -/
  own : ScriptState

/-- What a session keeps. -/
structure Session where
  /-- What tasks share. -/
  world : World
  /-- The projects. -/
  projects : Names Project
  /-- The orgs. -/
  orgs : Names OrgId
  /-- The loggers. -/
  loggers : Names Logger
  /-- The flows. -/
  flows : Names Flow
  /-- The stacks. -/
  stackIds : Names StackId
  /-- The tasks. -/
  tasks : Names ScriptedTask

/-- What can be seen of a task. -/
structure Report where
  /-- The state of the task. -/
  state : TaskState
  /-- What its kind says about itself. -/
  plan : Plan
  /-- The name of its org. -/
  orgName : Option String
  /-- The lines of its log. -/
  log : List LogLine

/-- How a call of a task, or actions run on it, ended. -/
structure Ended (ε α : Type) where
  /-- How it ended. -/
  outcome : Outcome ε α
  /-- What happened meanwhile. -/
  trace : List TraceRecord
  /-- The task afterwards. -/
  after : Report

namespace Session

/-- The session that keeps nothing yet. -/
def start (environment : Environment) (directory : WorkingDirectory) : Session where
  world := .start environment directory
  projects := []
  orgs := []
  loggers := []
  flows := []
  stackIds := []
  tasks := []

/-- The bound on the rounds of loops in a session. -/
def limit : Nat := 0x10000000000

/-- The project of a name; unknown names stand for the project that says nothing. -/
def project (session : Session) (name : String) : Project :=
  (session.projects.lookup name).getD .empty

/-- Keeps an org. -/
def addOrg (session : Session) (name : String) (org : Org) : Session :=
  let (id, orgs) := session.world.orgs.add org
  { session with
    world := { session.world with orgs }
    orgs := (name, id) :: session.orgs }

/-- Makes the logger that was chosen. -/
def makeLogger (session : Session) : LoggerChoice → Logger × Session
  | .existing logger => (logger, session)
  | .new name limit =>
    let (logger, world) := session.world.newLogger name limit
    (logger, { session with world })

/-- Keeps a logger. -/
def addLogger (session : Session) (name : String) (choice : LoggerChoice) : Session :=
  let (logger, session) := session.makeLogger choice
  { session with loggers := (name, logger) :: session.loggers }

/-- Keeps a flow. -/
def addFlow (session : Session) (name : String) (choice : LoggerChoice) : Session :=
  let (logger, session) := session.makeLogger choice
  { session with flows := (name, ⟨name, logger⟩) :: session.flows }

/-- Keeps a new stack. -/
def addStack (session : Session) (name : String) : Session :=
  { session with stackIds := (name, session.stackIds.length + 1) :: session.stackIds }

/-- What can be seen of a task. -/
def report (session : Session) (task : ScriptedTask) : Report where
  state := task.state
  plan := task.script.plan
  orgName := (task.state.org.bind session.world.orgs.get?).map Org.name
  log := session.world.book.lines task.state.logger

/-- Constructs a task for a project and keeps it. -/
def build (session : Session) (name : String) (project : Project) (script : TaskScript) :
    Except TaskError Report × Session :=
  let plan := script.plan
  let (logger, session) := match plan.logger with
    | none => (none, session)
    | some choice =>
      let (logger, session) := session.makeLogger choice
      (some logger, session)
  let (result, world) :=
    (plan.builder project logger).build EngineSettings.off plan.profile session.world
  let session := { session with world }
  match result with
  | .error error => (.error error, session)
  | .ok state =>
    let task : ScriptedTask := ⟨script, state, .start⟩
    (.ok (session.report task), { session with tasks := (name, task) :: session.tasks })

/-- Puts a task in the place of one that is kept. -/
def putTask (session : Session) (name : String) (task : ScriptedTask) : Session :=
  { session with tasks := (name, task) :: session.tasks.filter (·.1 != name) }

/-- Does something with a task that is kept; `own` says what the task keeps for itself in the
end. -/
def act {ε α : Type} (session : Session) (name : String) (task : ScriptedTask)
    (act : Act ScriptState ε α) (own : Outcome ε α → ScriptState → ScriptState) :
    Ended ε α × Session :=
  let (outcome, r) := act ⟨session.world, task.state, task.own.forget⟩
  let task : ScriptedTask := ⟨task.script, r.task, own outcome r.own⟩
  let session := { session with world := r.world }.putTask name task
  (⟨outcome, task.own.trace.reverse, session.report task⟩, session)

/-- Calls a task on a stack. -/
def call (session : Session) (name : String) (task : ScriptedTask) (stack : StackId) :
    Ended TaskError (OrderedMap Value) × Session :=
  session.act name task (task.script.kind.call EngineSettings.off limit stack) fun _ own => own

/-- Runs actions on a task outside of a call.  If they panic, what the task keeps for itself
stays as it was. -/
def run (session : Session) (name : String) (task : ScriptedTask) (actions : List Action) :
    Ended StepFailure Value × Session :=
  session.act name task
    ((actionsBody actions .null).run (task.script.kind.surroundings EngineSettings.off limit))
    fun outcome own => match outcome with
      | .panicked _ => task.own.forget
      | _ => own

/-- Refreshes the credentials of an org with the keychain of a project, and returns what was
logged. -/
def refresh (session : Session) (id : OrgId) (project : Project) :
    Except Failure (List LogLine) × Session :=
  let (logger, world) := session.world.newLogger "refresh" defaultHistoryLimit
  let (result, world) := world.refreshCredentials id project.keychain logger
  (result.map fun _ => world.book.lines logger, { session with world })

end Session

end TaskEngine
