import TaskEngine.Capture
import TaskEngine.Duration
import TaskEngine.Files.WorkingDirectory
import TaskEngine.Org
import TaskEngine.Stack

/-!
# The world of tasks

What all tasks of a process share: the stacks they run on, the working directory, the
log book, the orgs, the streams of the process, and a count of the tasks constructed.

## Main definitions

* `World` — what tasks share.
* `World.log`, `World.sleep`, `World.changeDirectory`, … — what tasks do to it.
* `World.saveIfChanged` — saves an org if a request changed its state.
* `World.refreshCredentials` — refreshes the token of an org.
-/

namespace TaskEngine

/-- How a task waits. -/
inductive Sleeper
  /-- By suspending the process. -/
  | suspend
  /-- By writing down how long it would wait. -/
  | record
  deriving DecidableEq

/-- A wait that a task asked for. -/
structure Wait where
  /-- Who was asked. -/
  sleeper : Sleeper
  /-- For how long. -/
  duration : Duration
  deriving DecidableEq

/-- What tasks share. -/
structure World where
  /-- The stacks. -/
  taskStacks : StackStore
  /-- The files and the working directory. -/
  directory : WorkingDirectory
  /-- The histories of loggers. -/
  book : LogBook
  /-- The orgs. -/
  orgs : OrgStore
  /-- The number of the task constructed next.  Numbers of 64 bits would come round again, but only
  after `2 ^ 64` tasks, which no process lives to construct. -/
  nextTaskId : Nat
  /-- What was written to the output stream of the process. -/
  processOut : Bytes
  /-- What was written to the error stream of the process. -/
  processErr : Bytes
  /-- The waits asked for, the latest last. -/
  waits : List Wait
  /-- The environment of the process. -/
  environment : Environment

namespace World

/-- The world of a process that starts in a directory. -/
def start (environment : Environment) (directory : WorkingDirectory) : World where
  taskStacks := .empty
  directory := directory
  book := .empty
  orgs := .empty
  nextTaskId := 1
  processOut := []
  processErr := []
  waits := []
  environment := environment

/-- Records a line. -/
def log (world : World) (logger : Logger) (level : LogLevel) (message : String) : World :=
  { world with book := world.book.record logger level message }

/-- Records lines that were captured. -/
def logCaptured (world : World) (logger : Logger) (lines : List CapturedLine) : World :=
  lines.foldl (fun world line => world.log logger line.stream.level line.text) world

/-- Writes bytes to a stream of the process. -/
def pass (world : World) : Stream → Bytes → World
  | .out, bytes => { world with processOut := world.processOut ++ bytes }
  | .err, bytes => { world with processErr := world.processErr ++ bytes }

/-- Does what became of written bytes. -/
def accept (world : World) (logger : Logger) (transcript : Transcript) : World :=
  let world := world.logCaptured logger transcript.lines
  match transcript.passed with
  | some (stream, bytes) => world.pass stream bytes
  | none => world

/-- Waits. -/
def sleep (world : World) (sleeper : Sleeper) (duration : Duration) : World :=
  { world with waits := world.waits ++ [⟨sleeper, duration⟩] }

/-- Opens a new hierarchy of loggers. -/
def newLogger (world : World) (name : String) (limit : Nat) : Logger × World :=
  let (logger, book) := world.book.start name limit
  (logger, { world with book })

/-- Opens a hierarchy for tasks outside of flows. -/
def newDefaultLogger (world : World) : Logger × World :=
  world.newLogger defaultLoggerName defaultHistoryLimit

/-- Goes to another directory. -/
def changeDirectory (world : World) (path : String) : Except OsError World :=
  (world.directory.change path).map ({ world with directory := · })

/-- The frames on a stack. -/
def frames (world : World) (stack : StackId) : List Frame := (world.taskStacks.get stack).frames

/-- Puts a frame on a stack. -/
def pushFrame (world : World) (stack : StackId) (frame : Frame) : World :=
  { world with taskStacks := world.taskStacks.modify stack (·.push frame) }

/-- Takes the innermost frame off a stack. -/
def popFrame (world : World) (stack : StackId) : World :=
  { world with taskStacks := world.taskStacks.modify stack .pop }

/-- How services are looked up in a keychain, if there is one. -/
def serviceLookup (world : World) (keychain : Option Keychain) : ServiceLookup :=
  keychain.map fun keychain => keychain.service world.environment

/-- What is logged before an org is saved. -/
def savingNotice : String := "Org info updated, writing to keychain"

/-- Makes a request of an org and saves the org if its snapshot changed; nothing is saved if
the request fails. -/
def saveIfChanged (world : World) (id : OrgId) (org : Org) (logger : Logger)
    (request : Org → Option Failure × Org) : Except Failure Unit × World :=
  let (failure, after) := request org
  let world := { world with orgs := world.orgs.set id after }
  match failure with
  | some failure => (.error failure, world)
  | none =>
    if after.snapshot.same org.snapshot then (.ok (), world)
    else
      let world := world.log logger .info savingNotice
      let (failure, saved) := after.save
      let world := { world with orgs := world.orgs.set id saved }
      match failure with
      | some failure => (.error failure, world)
      | none => (.ok (), world)

/-- Refreshes the token of an org with the services of a keychain. -/
def refreshCredentials (world : World) (id : OrgId) (keychain : Option Keychain)
    (logger : Logger) : Except Failure Unit × World :=
  match world.orgs.get? id with
  | none => (.ok (), world)
  | some org => world.saveIfChanged id org logger (·.refresh (world.serviceLookup keychain))

end World

end TaskEngine
