import TaskEngine.Failure
import TaskEngine.Files.Tree

/-!
# Errors of tasks

## Main definitions

* `TaskError` — why a task could not be constructed or did not succeed.
* `StepFailure` — the failure of one attempt, and whether another may be made.
-/

namespace TaskEngine

/-- Why a task could not be constructed or did not succeed. -/
inductive TaskError
  /-- Required options are absent. -/
  | options (task : String) (missing : List String)
  /-- The task needs an org, and none is attached. -/
  | requiresOrg
  /-- The credentials of the org could not be refreshed. -/
  | credentials (failure : Failure)
  /-- The working directory could not be entered. -/
  | workingDirectory (path : String) (reason : OsError)
  /-- A part of the task itself failed. -/
  | execution (failure : Failure)
  deriving DecidableEq

namespace TaskError

/-- The message of an error. -/
def message : TaskError → String
  | .options task missing =>
    task ++ " requires the options (" ++ ",".intercalate missing ++ ") and no values were provided"
  | .requiresOrg =>
    "This task requires a salesforce org. Use org default <name> to set a default org or " ++
      "pass the org name with the --org option"
  | .credentials failure => "failed to refresh org credentials: " ++ failure.detailed
  | .workingDirectory path reason =>
    s!"could not enter working directory {path}: " ++ reason.message
  | .execution failure => failure.message

/-- The messages of the causes of an error. -/
def causes : TaskError → List String
  | .options .. | .requiresOrg => []
  | .credentials failure => failure.chain
  | .workingDirectory _ reason => [reason.message]
  | .execution failure => failure.causes

/-- The failure of a task that another one runs. -/
def failure (error : TaskError) : Failure := ⟨error.message, error.causes⟩

end TaskError

/-- The failure of one attempt. -/
structure StepFailure where
  /-- Whether another attempt may succeed. -/
  transient : Bool
  /-- What went wrong. -/
  failure : Failure
  deriving DecidableEq, Inhabited

namespace StepFailure

/-- A failure after which another attempt may be made; this is what becomes of any error
inside an attempt. -/
def ofFailure (failure : Failure) : StepFailure := ⟨true, failure⟩

/-- A failure after which no other attempt is made. -/
def permanent (failure : Failure) : StepFailure := ⟨false, failure⟩

/-- The failure with further attempts ruled out. -/
def intoPermanent (step : StepFailure) : StepFailure := { step with transient := false }

/-- The message of a failed attempt. -/
def message (step : StepFailure) : String := step.failure.detailed

/-- The name of the kind of failure. -/
def kindName (step : StepFailure) : String := if step.transient then "Transient" else "Permanent"

end StepFailure

end TaskEngine
