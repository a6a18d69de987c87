import TaskEngine.Task.Body

/-!
# Scripted tasks

A script says action by action what the parts of a task do, and leaves a trace of what
happened while it ran.

## Main definitions

* `TraceRecord` — one thing that happened.
* `ScriptState` — what a scripted task keeps for itself.
* `Action`, `Attempt`, `Look`, `TaskScript` — the scripts.
* `Plan` — what a scripted task is constructed from.
-/

namespace TaskEngine

/-- What a script sees when it looks around. -/
structure Sight where
  /-- The frames on its stack. -/
  frames : List Frame
  /-- The depth of the default stack. -/
  defaultDepth : Nat
  /-- The working directory, unless it is gone. -/
  directory : Option String
  /-- The directory that was current when its body was entered. -/
  workingPath : Option Path
  /-- How far its waiting has come. -/
  poll : PollState
  /-- Its options. -/
  options : Options
  /-- The result of its last body that succeeded. -/
  result : Option Value

/-- One thing that happened while a script ran. -/
inductive TraceRecord
  /-- An attempt was made. -/
  | attempt (number : Nat)
  /-- Attempts came to a value. -/
  | retried (value : Value)
  /-- Actions were tried out. -/
  | tried (result : Except Failure Value)
  /-- The name of the client was asked for. -/
  | clientName (name : String)
  /-- The script looked around. -/
  | saw (sight : Sight)
  /-- A further task was called. -/
  | nested (outcome : Outcome TaskError (OrderedMap Value)) (log : List LogLine)
      (trace : List TraceRecord) (result : Option Value) (depth : Nat)

/-- What a scripted task keeps for itself. -/
structure ScriptState where
  /-- How many attempts its kind has made. -/
  attempts : Nat
  /-- How many looks its kind has taken. -/
  looks : Nat
  /-- What happened, the latest first. -/
  trace : List TraceRecord

namespace ScriptState

/-- Before anything has happened. -/
def start : ScriptState := ⟨0, 0, []⟩

instance : Inhabited ScriptState := ⟨start⟩

/-- Adds to the trace. -/
def add (state : ScriptState) (record : TraceRecord) : ScriptState :=
  { state with trace := record :: state.trace }

/-- Forgets the trace. -/
def forget (state : ScriptState) : ScriptState := { state with trace := [] }

end ScriptState

/-- Which logger a scripted task gets. -/
inductive LoggerChoice
  /-- One that is there. -/
  | existing (logger : Logger)
  /-- A new one. -/
  | new (name : String) (limit : Nat)

/-- Which configuration a scripted task gets. -/
inductive ConfigChoice
  /-- One of its own. -/
  | given (config : TaskConfig)
  /-- That of a task that its project names. -/
  | named (name : String)

/-- The configuration chosen. -/
def ConfigChoice.config (project : Project) : ConfigChoice → TaskConfig
  | .given config => config
  | .named name => (project.taskConfig? name).getD .empty

/-- Which parts a scripted kind of task brings along besides its body. -/
inductive Variety
  /-- None. -/
  | plain
  /-- Its own way to refresh credentials. -/
  | custom
  /-- Everything else. -/
  | full
  deriving DecidableEq

/-- What a scripted task is constructed from, its actions aside. -/
structure Plan where
  /-- The name of its kind. -/
  className : String
  /-- Which parts the kind brings along. -/
  variety : Variety
  /-- What its kind is for. -/
  docs : String
  /-- The options that its kind understands. -/
  schema : Schema
  /-- Whether its kind needs an org. -/
  requiresOrg : Bool
  /-- Texts that rule out another attempt when they occur in a failure. -/
  reject : List String
  /-- The configuration. -/
  config : ConfigChoice
  /-- The org to attach. -/
  org : Option OrgId
  /-- The flow it is part of. -/
  flow : Option Flow
  /-- Its name, in place of the configured one. -/
  name : Option String
  /-- The number of its step. -/
  stepNum : Option String
  /-- Its logger. -/
  logger : Option LoggerChoice
  /-- Options asked for one by one. -/
  overrides : List (String × Value)
  /-- Options asked for together. -/
  options : Options
  /-- Whether output is captured. -/
  capture : Option Bool
  /-- Whether options are logged. -/
  debug : Option Bool
  /-- How it waits. -/
  sleeper : Sleeper

/-- A task of a kind without a name, for which nothing is asked. -/
def Plan.empty : Plan where
  className := ""
  variety := .plain
  docs := ""
  schema := .empty
  requiresOrg := false
  reject := []
  config := .given .empty
  org := none
  flow := none
  name := none
  stepNum := none
  logger := none
  overrides := []
  options := ∅
  capture := none
  debug := none
  sleeper := .suspend

instance : Inhabited Plan := ⟨.empty⟩

mutual

/-- Something that a script does. -/
inductive Action
  /-- Gives an option a value. -/
  | set (key : String) (value : Value)
  /-- Takes an option away. -/
  | unset (key : String)
  /-- Publishes a value. -/
  | publish (key : String) (value : Value)
  /-- Records a line. -/
  | log (level : LogLevel) (text : String)
  /-- Writes bytes to a stream. -/
  | write (stream : Stream) (bytes : Bytes)
  /-- Sees to it that what is written arrives, which it does anyway. -/
  | flush
  /-- Makes the attempts of its kind of task. -/
  | retry
  /-- Looks as its kind of task does. -/
  | poll
  /-- Makes attempts. -/
  | retryWith (attempts : List Attempt)
  /-- Looks until what it waits for has happened. -/
  | pollWith (looks : List Look)
  /-- What it waits for has happened. -/
  | complete
  /-- Begins waiting anew. -/
  | resetPoll
  /-- Waits. -/
  | sleep (duration : Duration)
  /-- Goes to another directory. -/
  | changeDirectory (path : String)
  /-- Looks around. -/
  | see
  /-- Asks for the name of the client. -/
  | clientName
  /-- Tries out actions, and goes on even if they fail. -/
  | tryOut (actions : List Action)
  /-- Constructs a further task and calls it. -/
  | nested (script : TaskScript) (onDefaultStack : Bool) (propagate : Bool)
  /-- Fails. -/
  | fail (failure : Failure)
  /-- Panics. -/
  | panic (text : String)
  /-- Settles the value of the script. -/
  | give (value : Value)
  /-- Settles the value of an option as the value of the script. -/
  | giveOption (key : String)

/-- An attempt: actions, and the failure that follows them, if one does. -/
inductive Attempt
  | mk (actions : List Action) (failure : Option StepFailure)

/-- A look: actions, the failure that follows them, if one does, whether the awaited thing has
happened then, and from which look on it has. -/
inductive Look
  | mk (actions : List Action) (failure : Option Failure) (complete : Bool) (from? : Option Nat)

/-- A scripted task. -/
inductive TaskScript
  | mk (plan : Plan) (body init credentials : List Action) (attempts : List Attempt)
      (looks : List Look)

end

instance : Inhabited Attempt := ⟨.mk [] none⟩

instance : Inhabited Look := ⟨.mk [] none true none⟩

instance : Inhabited TaskScript := ⟨.mk default [] [] [] [] []⟩

/-- What a scripted task is constructed from. -/
def TaskScript.plan : TaskScript → Plan
  | .mk plan .. => plan

end TaskEngine
