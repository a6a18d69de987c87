import TaskEngine.Script.Action

/-!
# What scripts do

## Main definitions

* `actionBody`, `actionsBody` — the terms of actions.
* `TaskScript.part` — the terms of the parts of a scripted task.
* `TaskScript.kind`, `Plan.builder` — what a scripted task is constructed from.
-/

namespace TaskEngine

/-- The term of a script. -/
abbrev ScriptBody := Body ScriptState

/-- Does one thing after another and keeps a value. -/
def keeping (value : Value) (first : ScriptBody) : ScriptBody :=
  .andThen first fun _ => .done value

/-- Changes what a script keeps for itself. -/
def editOwn (change : ScriptState → ScriptState) : ScriptBody :=
  .edit fun l => { l with own := change l.own }

/-- Adds to the trace of a script. -/
def addRecord (record : TraceRecord) : ScriptBody := editOwn (·.add record)

/-- What a script sees. -/
def sightOf (r : Running ScriptState) : Sight where
  frames := r.world.frames r.task.stack
  defaultDepth := (r.world.frames StackStore.default).length
  directory := r.world.directory.text?
  workingPath := r.task.workingPath
  poll := r.task.poll
  options := r.task.options
  result := r.task.result

/-- The entry of a given place; the last entry stands for all places behind it. -/
def entryAt {α : Type} (entries : List α) (place : Nat) : Option α :=
  entries[min place (entries.length - 1)]?

namespace Plan

/-- What the kind of a scripted task says about itself. -/
def profile (plan : Plan) : Profile ScriptState where
  className := plan.className
  docs := plan.docs
  schema := plan.schema
  requiresOrg := plan.requiresOrg
  retryValid _ failure :=
    !plan.reject.any fun text => (Piece.literal text).occurs failure.detailed.toList

/-- What the caller of a scripted task asks for, with a logger that has been chosen. -/
def builder (plan : Plan) (project : Project) (logger : Option Logger) : Builder :=
  let asked : Builder := { Builder.start project (plan.config.config project) with
    org := plan.org
    flow := plan.flow
    name := plan.name
    stepNum := plan.stepNum
    logger := logger
    capture := plan.capture
    debug := plan.debug
    sleeper := plan.sleeper }
  (plan.overrides.foldl (fun builder (key, value) => builder.option key value) asked).options
    plan.options

end Plan

/-- Goes on with the logger that was chosen. -/
def withLogger (choice : Option LoggerChoice) (next : Option Logger → ScriptBody) : ScriptBody :=
  match choice with
  | none => next none
  | some (.existing logger) => next (some logger)
  | some (.new name limit) => .openLogger name limit fun logger => next (some logger)

/-- What is recorded of a further task that was called. -/
def nestedRecord (outcome : Outcome TaskError (OrderedMap Value)) (task : TaskState)
    (own : ScriptState) (r : Running ScriptState) : TraceRecord :=
  .nested outcome (r.world.book.lines task.logger) own.trace.reverse task.result
    (r.world.frames r.task.stack).length

/-- Records how a further task ended, and fails with it if that is asked for. -/
def afterNested (propagate : Bool) (value : Value) : Invocation ScriptState → ScriptBody
  | .refused error => .fail (.ofFailure error.failure)
  | .ended outcome task own => .andThen
    (.see fun r => addRecord (nestedRecord outcome task own r)) fun _ =>
      match outcome with
      | .failed error => if propagate then .fail (.ofFailure error.failure) else .done value
      | _ => .done value

/-- The look of a given number ends. -/
def endLook (failure : Option Failure) (complete : Bool) (from? : Option Nat) : ScriptBody :=
  match failure with
  | some failure => .fail (.ofFailure failure)
  | none => .see fun r =>
    if complete || from?.any (· ≤ r.task.poll.count) then
      .edit fun l => { l with poll := l.poll.markComplete }
    else .done .null

/-- The attempt of a number, numbered from zero; without entries every attempt succeeds. -/
def attemptAt (entries : List ScriptBody) (n : Nat) : ScriptBody :=
  .andThen (addRecord (.attempt (n + 1))) fun _ => (entryAt entries n).getD (.done .null)

/-- The look of a number, numbered from zero. -/
def lookAt (entries : List ScriptBody) (n : Nat) : ScriptBody :=
  (entryAt entries n).getD (.done .null)

/-- Counts the attempts of a kind of task. -/
def countedAttempt (entries : List ScriptBody) : ScriptBody :=
  .see fun r => .andThen (editOwn fun own => { own with attempts := own.attempts + 1 }) fun _ =>
    attemptAt entries r.own.attempts

/-- Counts the looks of a kind of task. -/
def countedLook (entries : List ScriptBody) : ScriptBody :=
  .see fun r => .andThen (editOwn fun own => { own with looks := own.looks + 1 }) fun _ =>
    lookAt entries r.own.looks

/-- The parts of a scripted kind of task: those that its variety brings along, and the usual
ones besides. -/
def chooseParts (plan : Plan) (body init credentials tryStep pollAction : ScriptBody) :
    Hook → ScriptBody := fun hook =>
  match plan.variety, hook with
  | _, .body => body
  | .custom, .credentials => credentials
  | .full, .init => init
  | .full, .tryStep => tryStep
  | .full, .pollAction => pollAction
  | _, hook => TaskKind.defaultPart plan.className hook

mutual

/-- The term of an action, with the value settled so far. -/
def actionBody : Action → Value → ScriptBody
  | .set key v, value => keeping value (.edit fun l => { l with options := l.options.insert key v })
  | .unset key, value => keeping value (.edit fun l => { l with options := l.options.erase key })
  | .publish key v, value =>
    keeping value (.edit fun l => { l with returnValues := l.returnValues.insert key v })
  | .log level text, value => keeping value (.log level text)
  | .write stream bytes, value => keeping value (.write stream bytes)
  | .flush, value => .done value
  | .retry, value => keeping value .retryStep
  | .poll, value => keeping value .pollStep
  | .retryWith attempts, value =>
    let entries := attemptBodies attempts
    keeping value (.andThen (.retrying (attemptAt entries)) fun found => addRecord (.retried found))
  | .pollWith looks, value =>
    let entries := lookBodies looks
    keeping value (.polling (lookAt entries))
  | .complete, value => keeping value (.edit fun l => { l with poll := l.poll.markComplete })
  | .resetPoll, value => keeping value (.edit fun l => { l with poll := .initial })
  | .sleep duration, value => keeping value (.sleep duration)
  | .changeDirectory path, value => keeping value (.changeDirectory path)
  | .see, value => keeping value (.see fun r => addRecord (.saw (sightOf r)))
  | .clientName, value => keeping value (.see fun r => addRecord
      (.clientName (Keychain.clientName r.world.environment r.task.project.keychain)))
  | .tryOut actions, value =>
    .recover (actionsBody actions .null) fun result => keeping value
      (addRecord (.tried (match result with
        | .ok found => .ok found
        | .error step => .error step.failure)))
  | .nested script onDefaultStack propagate, value =>
    let part := scriptPart script
    withLogger script.plan.logger fun logger => .see fun r =>
      .invoke script.plan.profile part .start (script.plan.builder r.task.project logger)
        (if onDefaultStack then some StackStore.default else none) (afterNested propagate value)
  | .fail failure, _ => .fail (.ofFailure failure)
  | .panic text, _ => .panic text
  | .give v, _ => .done v
  | .giveOption key, _ => .see fun r => .done ((r.task.options.get? key).getD .null)

/-- The term of actions, with the value settled so far. -/
def actionsBody : List Action → Value → ScriptBody
  | [], value => .done value
  | action :: actions, value =>
    .andThen (actionBody action value) fun value => actionsBody actions value

/-- The term of an attempt. -/
def attemptBody : Attempt → ScriptBody
  | .mk actions failure => .andThen (actionsBody actions .null) fun value => match failure with
    | some step => .fail step
    | none => .done value

/-- The terms of attempts. -/
def attemptBodies : List Attempt → List ScriptBody
  | [] => []
  | attempt :: attempts => attemptBody attempt :: attemptBodies attempts

/-- The term of a look. -/
def lookBody : Look → ScriptBody
  | .mk actions failure complete from? =>
    .andThen (actionsBody actions .null) fun _ => endLook failure complete from?

/-- The terms of looks. -/
def lookBodies : List Look → List ScriptBody
  | [] => []
  | look :: looks => lookBody look :: lookBodies looks

/-- The terms of the parts of a scripted task. -/
def scriptPart : TaskScript → Hook → ScriptBody
  | .mk plan body init credentials attempts looks =>
    chooseParts plan (actionsBody body .null) (actionsBody init .null)
      (actionsBody credentials .null) (countedAttempt (attemptBodies attempts))
      (countedLook (lookBodies looks))

end

/-- The kind of a scripted task. -/
def TaskScript.kind (script : TaskScript) : TaskKind ScriptState :=
  ⟨script.plan.profile, scriptPart script⟩

end TaskEngine
