import TaskEngine.Document
import TaskEngine.Options

/-!
# Task configurations

## Main definitions

* `TaskConfig` — what a project or a flow says about one task.
* `FrozenConfig` — what of it a frozen step keeps.
-/

namespace TaskEngine

/-- What a project or a flow says about one task. -/
structure TaskConfig where
  /-- The name of the task. -/
  name : Option String
  /-- The reference to what the task does. -/
  classPath : Option String
  /-- What the task is for. -/
  description : Option String
  /-- The options, if the configuration has any. -/
  options : Option Options
  /-- Checks to make before the task runs. -/
  checks : List Value
  /-- What a frozen step shows instead of its own fields. -/
  uiOptions : OrderedMap Value

/-- The object with the entries of an ordered map, in their order. -/
def OrderedMap.toObject (map : OrderedMap Value) : Value := .object map.entries

namespace TaskConfig

/-- The configuration that says nothing. -/
def empty : TaskConfig := ⟨none, none, none, none, [], ∅⟩

instance : Inhabited TaskConfig := ⟨empty⟩

/-- The configuration with a reference to what the task does. -/
def ofClass (classPath : String) : TaskConfig := { empty with classPath := some classPath }

/-- Gives the task a name. -/
def withName (config : TaskConfig) (name : String) : TaskConfig := { config with name := some name }

/-- Gives the task an option. -/
def withOption (config : TaskConfig) (key : String) (value : Value) : TaskConfig :=
  { config with options := some ((config.options.getD ∅).insert key value) }

/-- Shows something else in a frozen step. -/
def withUiOption (config : TaskConfig) (key : String) (value : Value) : TaskConfig :=
  { config with uiOptions := config.uiOptions.insert key value }

/-- Adds a check. -/
def withCheck (config : TaskConfig) (check : Value) : TaskConfig :=
  { config with checks := config.checks ++ [check] }

/-- The configuration under a name that holds unless it has one of its own. -/
def orNamed (config : TaskConfig) (name : String) : TaskConfig :=
  { config with name := some (config.name.getD name) }

/-- The fields of a configuration. -/
def toDocument (config : TaskConfig) : Value :=
  .object [("name", .ofText? config.name), ("class_path", .ofText? config.classPath),
    ("description", .ofText? config.description),
    ("options", match config.options with
      | some options => options.toObject
      | none => .null),
    ("checks", .array config.checks), ("ui_options", config.uiOptions.toObject)]

/-- Reads a configuration. -/
def reader {D : Type} [DocumentNode D] : RecordReader D TaskConfig :=
  TaskConfig.mk <$> .optional "name" DocumentNode.text <*>
    .optional "class_path" DocumentNode.text <*> .optional "description" DocumentNode.text <*>
    .optional "options" (readMap DocumentNode.value) <*>
    .withDefault "checks" (readList DocumentNode.value) [] <*>
    .withDefault "ui_options" (readMap DocumentNode.value) ∅

end TaskConfig

/-- What a frozen step keeps of the configuration of its task. -/
structure FrozenConfig where
  /-- The options. -/
  options : Options
  /-- The checks. -/
  checks : List Value

namespace FrozenConfig

/-- The fields of a frozen configuration. -/
def toDocument (config : FrozenConfig) : Value :=
  .object [("options", config.options.toObject), ("checks", .array config.checks)]

/-- Reads a frozen configuration. -/
def reader {D : Type} [DocumentNode D] : RecordReader D FrozenConfig :=
  FrozenConfig.mk <$> .required "options" (readMap DocumentNode.value) <*>
    .required "checks" (readList DocumentNode.value)

end FrozenConfig

end TaskEngine
