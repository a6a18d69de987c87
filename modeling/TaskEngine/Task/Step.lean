import TaskEngine.Project.Source
import TaskEngine.Task.Config

/-!
# Steps of a flow

## Main definitions

* `StepDescriptor` — the place of a task in a flow.
* `UiStep` — the record of a configured task at such a place.
-/

namespace TaskEngine

/-- The place of a task in a flow. -/
structure StepDescriptor where
  /-- The path of the step in the flow. -/
  path : String
  /-- The number of the step. -/
  stepNum : String
  /-- Where the project comes from that declares the step. -/
  source : ProjectSource

namespace StepDescriptor

/-- The fields of a step descriptor. -/
def toDocument (step : StepDescriptor) : Value :=
  .object [("path", .string step.path), ("step_num", .string step.stepNum),
    ("source", step.source.toDocument)]

/-- Reads a step descriptor. -/
def reader {D : Type} [DocumentNode D] : RecordReader D StepDescriptor :=
  StepDescriptor.mk <$> .required "path" DocumentNode.text <*>
    .required "step_num" DocumentNode.text <*>
    .withDefault "source" ProjectSource.read default

end StepDescriptor

/-- The record of a configured task at its place in a flow. -/
structure UiStep where
  /-- The name to show. -/
  name : Option String
  /-- The kind of step. -/
  kind : String
  /-- Whether the step has to be run. -/
  isRequired : Bool
  /-- What else is shown. -/
  extra : OrderedMap Value
  /-- The path of the step in the flow. -/
  path : String
  /-- The number of the step. -/
  stepNum : String
  /-- The reference to what the task does. -/
  taskClass : Option String
  /-- The options and checks of the task. -/
  taskConfig : FrozenConfig
  /-- Where the project comes from, in its frozen form. -/
  source : Value

namespace UiStep

/-- The fields of a step. -/
def toDocument (step : UiStep) : Value :=
  .object ([("name", .ofText? step.name), ("kind", .string step.kind),
      ("is_required", .bool step.isRequired)] ++ step.extra.entries ++
    [("path", .string step.path), ("step_num", .string step.stepNum),
      ("task_class", .ofText? step.taskClass), ("task_config", step.taskConfig.toDocument),
      ("source", step.source)])

/-- Reads a step; fields it does not know are shown in addition. -/
def reader {D : Type} [DocumentNode D] : RecordReader D (OrderedMap Value → UiStep) :=
  (fun name kind isRequired path stepNum taskClass taskConfig source extra =>
      ⟨name, kind, isRequired, extra, path, stepNum, taskClass, taskConfig, source⟩) <$>
    .optional "name" DocumentNode.text <*> .required "kind" DocumentNode.text <*>
    .required "is_required" DocumentNode.flag <*> .required "path" DocumentNode.text <*>
    .required "step_num" DocumentNode.text <*> .optional "task_class" DocumentNode.text <*>
    .required "task_config" FrozenConfig.reader.read <*>
    .required "source" DocumentNode.value

end UiStep

end TaskEngine
