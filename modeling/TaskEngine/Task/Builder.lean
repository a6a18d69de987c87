import TaskEngine.Project.Reference
import TaskEngine.Redaction
import TaskEngine.Schema
import TaskEngine.Task.State

/-!
# Constructing tasks

A task is constructed from a configuration, the project, and what its caller wants to
be different.  Its options are resolved once: configured options under the caller's,
with defaults behind them and references replaced; then the required ones have to be
there.

## Main definitions

* `Profile` — what a kind of task says about itself.
* `Builder` — what a caller asks for.
* `Builder.resolveOptions` — the options of the task.
* `Builder.build` — the task, or the error that it cannot be constructed.
-/

namespace TaskEngine

/-- The last part of a qualified name, without its parameters. -/
def shortName (qualified : String) : String :=
  let rec lastPart : List Char → List Char
    | ':' :: ':' :: _ => []
    | c :: rest => c :: lastPart rest
    | [] => []
  String.ofList (lastPart (qualified.toList.takeWhile (· ≠ '<')).reverse).reverse

/-- What a kind of task says about itself; `σ` is the type of the data that its tasks keep for
themselves. -/
structure Profile (σ : Type) where
  /-- The name of the kind. -/
  className : String
  /-- What its tasks are for. -/
  docs : String
  /-- The options that its tasks understand. -/
  schema : Schema
  /-- Whether its tasks need an org. -/
  requiresOrg : Bool
  /-- Whether an attempt may be made again after a transient failure. -/
  retryValid : σ → Failure → Bool

/-- What the caller of a task asks for. -/
structure Builder where
  /-- The project to work on. -/
  project : Project
  /-- The configuration of the task. -/
  config : TaskConfig
  /-- The org to attach. -/
  org : Option OrgId
  /-- The flow that the task is part of. -/
  flow : Option Flow
  /-- The name of the task, in place of the configured one. -/
  name : Option String
  /-- The number of the step. -/
  stepNum : Option String
  /-- The logger, in place of one derived from the flow. -/
  logger : Option Logger
  /-- Options in place of the configured ones. -/
  overrides : Options
  /-- Whether output is captured, in place of the setting of the engine. -/
  capture : Option Bool
  /-- Whether options are logged, in place of the setting of the engine. -/
  debug : Option Bool
  /-- How the task waits. -/
  sleeper : Sleeper

namespace Builder

/-- Asks for nothing beyond the configuration. -/
def start (project : Project) (config : TaskConfig) : Builder where
  project := project
  config := config
  org := none
  flow := none
  name := none
  stepNum := none
  logger := none
  overrides := ∅
  capture := none
  debug := none
  sleeper := .suspend

/-- Asks for a value of an option. -/
def option (builder : Builder) (key : String) (value : Value) : Builder :=
  { builder with overrides := builder.overrides.insert key value }

/-- Asks for values of several options. -/
def options (builder : Builder) (overrides : Options) : Builder :=
  { builder with overrides := builder.overrides.extend overrides }

/-- The logger of a task of a given kind: the one asked for, or one below that of the flow, or
a new one. -/
def taskLogger (builder : Builder) (className : String) (world : World) : Logger × World :=
  match builder.logger, builder.flow with
  | some logger, _ => (logger, world)
  | none, some flow => (flow.logger.child className, world)
  | none, none => world.newDefaultLogger

/-- The options of a task with a given schema, and the attributes that they refer to but the
project does not define. -/
def resolveOptions (builder : Builder) (schema : Schema) : Options × List String :=
  (schema.fillDefaults (Options.merge builder.config.options builder.overrides)).resolveReferences
    (Lookup.ofProject builder.project)

/-- What is logged for an attribute that is not defined. -/
def undefinedNotice (name : String) : String :=
  s!"Project config attribute '{name}' is not defined; substituted '{missingAttribute}'"

/-- What is logged of an option. -/
def optionNotice (key : String) (value : Value) : String := s!"  {key}: " ++ value.display

/-- The lines that show options. -/
def optionNotices (options : Options) : List String :=
  "Options:" :: (redactOptions options).entries.map fun (key, value) => optionNotice key value

/-- Records lines of one level. -/
def logAll (world : World) (logger : Logger) (level : LogLevel) (messages : List String) : World :=
  messages.foldl (fun world message => world.log logger level message) world

/-- The task asked for, with the settings of the engine where the caller has none. -/
def build {σ : Type} (builder : Builder) (settings : EngineSettings) (profile : Profile σ)
    (world : World) : Except TaskError TaskState × World :=
  let (logger, world) := builder.taskLogger profile.className world
  let (options, undefined) := builder.resolveOptions profile.schema
  let world := logAll world logger .warning (undefined.map undefinedNotice)
  let missing := profile.schema.missing options
  if missing ≠ [] then (.error (.options profile.className missing), world)
  else
    let debugMode := builder.debug.getD settings.debugMode
    let world := if debugMode then logAll world logger .debug (optionNotices options) else world
    let task : TaskState := {
      id := world.nextTaskId
      className := profile.className
      name := builder.name.or builder.config.name
      stepNum := builder.stepNum
      project := builder.project
      config := builder.config
      org := builder.org
      flow := builder.flow
      logger := logger
      debugMode := debugMode
      sleeper := builder.sleeper
      options := options
      returnValues := ∅
      poll := .initial
      result := none
      workingPath := none
      capture := .start (builder.capture.getD settings.captureOutput)
      stack := StackStore.default }
    (.ok task, { world with nextTaskId := world.nextTaskId + 1 })

end Builder

end TaskEngine
