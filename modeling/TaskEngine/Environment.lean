import TaskEngine.Text.Space

/-!
# Environment variables

## Main definitions

* `Environment` — the variables of the process.
* `Environment.get?` — the text of a variable that is set and is a text.
* `EngineSettings` — the switches that variables turn on.
-/

namespace TaskEngine

/-- The variables of the process; the content of one that is no text is not known. -/
structure Environment where
  /-- The variables, the latest setting of each last. -/
  bindings : List (String × Option String)

namespace Environment

/-- The text of a variable that is set and is a text. -/
def get? (environment : Environment) (name : String) : Option String :=
  (environment.bindings.reverse.lookup name).join

/-- The variable with the home directory of the user. -/
def homeVariable : String := "HOME"

/-- The home directory of the user who runs the engine if no variable names one. -/
def accountHome : String := "/root"

/-- The home directory: the one that a variable names unless it is empty. -/
def home (environment : Environment) : String :=
  match environment.get? homeVariable with
  | some path => if path = "" then accountHome else path
  | none => accountHome

end Environment

/-- The switches of the engine. -/
structure EngineSettings where
  /-- Whether what tasks write goes to their loggers. -/
  captureOutput : Bool
  /-- Whether tasks log their options. -/
  debugMode : Bool
  deriving DecidableEq

namespace EngineSettings

/-- The switches while no variable turns them on. -/
def off : EngineSettings := ⟨false, false⟩

/-- The variable that turns on capturing. -/
def captureVariable : String := "CAPTURE_TASK_OUTPUT"

/-- The variable that turns on the logging of options. -/
def debugVariable : String := "STAGEHAND_DEBUG"

/-- The texts that turn a switch off. -/
def offWords : List String := ["", "0", "false", "no", "off"]

/-- Whether a variable turns its switch on. -/
def isOn : Option String → Bool
  | none => false
  | some text => asciiLower (trimSpace text) ∉ offWords

/-- The switches that an environment turns on. -/
def ofEnvironment (environment : Environment) : EngineSettings :=
  ⟨isOn (environment.get? captureVariable), isOn (environment.get? debugVariable)⟩

end EngineSettings

end TaskEngine
