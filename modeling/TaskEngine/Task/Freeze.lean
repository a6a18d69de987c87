import TaskEngine.Task.State
import TaskEngine.Task.Step

/-!
# Frozen steps

## Main definitions

* `UiStep.override` — one of the shown fields in place of the task's own.
* `freezeTask` — the record of a task at a place in a flow.
-/

namespace TaskEngine

/-- The kind of a step that says nothing else. -/
def defaultStepKind : String := "other"

/-- The fields that always come from the step and its task. -/
def frozenKeys : List String := ["path", "step_num", "task_class", "task_config", "source"]

/-- Shows something else in a step. -/
def UiStep.override (step : UiStep) (key : String) (value : Value) : UiStep :=
  if key = "name" then
    { step with name := match value with
        | .null => none
        | value => some value.display }
  else if key = "kind" then { step with kind := value.display }
  else if key = "is_required" then { step with isRequired := value.isTruthy }
  else if key ∈ frozenKeys then step
  else { step with extra := step.extra.insert key value }

/-- The record of a task at a place in a flow, before anything else is shown in it. -/
def plainStep (task : TaskState) (step : StepDescriptor) : UiStep where
  name := task.config.name.or task.name
  kind := defaultStepKind
  isRequired := true
  extra := ∅
  path := step.path
  stepNum := step.stepNum
  taskClass := task.config.classPath
  taskConfig := ⟨task.options, task.config.checks⟩
  source := step.source.frozen

/-- The steps that record a task at a place in a flow. -/
def freezeTask (task : TaskState) (step : StepDescriptor) : List UiStep :=
  [task.config.uiOptions.entries.foldl (fun shown (key, value) => shown.override key value)
    (plainStep task step)]

end TaskEngine
