import TaskEngine.Proofs.Calls.Kept

/-!
# What a call restores

Once its hooks have passed, a call pushes the frame of its task, enters the directory of the
project and opens a capture scope.  However the body ends, all three are undone: the scope is
closed first, then the former directory is entered again, and the frame goes last.  If the
directory of the project cannot be entered, the frame is all there is to undo.

The body may call further tasks, to any depth; what it keeps is known from `TaskKind.kept_hook`,
so that the frame that goes is the one that was pushed.  Those calls restore what they change as
well, since the parts of the tasks called make up a kind of task in turn.

## Main definitions

* `TaskKind.Passes` — a call has passed its hooks.
* `TaskKind.runInside` — the body as a call runs it.
* `Running.Restores` — the frames and the working directory are as before.
* `Capture.Closed` — no scope is open, and nothing waits to be logged.

## Main results

* `TaskKind.call_of_passes` — after its hooks, a call consists of its last two stages.
* `TaskKind.call_restores` — **a call restores what it changes**, however its body ends.
-/

namespace TaskEngine

/-! ### Closed scopes -/

namespace Capture

/-- No scope is open, and nothing waits to be logged. -/
structure Closed (capture : Capture) : Prop where
  /-- No scope is open. -/
  inactive : capture.active = false
  /-- The output stream has no incomplete line. -/
  out : capture.pendingOut = []
  /-- The error stream has no incomplete line. -/
  err : capture.pendingErr = []

/-- What waits, as lines; that of the output stream comes first. -/
def remainders (capture : Capture) : List CapturedLine :=
  capture.remainder .out ++ capture.remainder .err

/-- A scope that is left is closed; without capturing, nothing waited in it. -/
theorem closed_leave (capture : Capture) : capture.leave.1.Closed := by
  rw [leave]
  split
  · exact ⟨rfl, rfl, rfl⟩
  · rename_i henabled
    have hquiet := capture.quiet (by rw [eq_false_of_ne_true henabled, Bool.false_and])
    exact ⟨rfl, hquiet.1, hquiet.2⟩

theorem leave_lines (capture : Capture) :
    capture.leave.2 = if capture.enabled then capture.remainders else [] := by
  rw [leave]
  split
  · rfl
  · rfl

end Capture

variable {σ : Type}

/-! ### The last two stages -/

/-- What a call has set up is undone: the scope, the working directory and the frame. -/
def Running.undo (r : Running σ) (former : Path) (stack : StackId) : Running σ :=
  ((closeCapture r).onWorld fun world =>
    { world with directory := world.directory.leave former }).onWorld (·.popFrame stack)

/-- The frames of all stacks are as before, and so is the working directory, if one can still go
there. -/
structure Running.Restores (ready left : Running σ) : Prop where
  /-- The frames on every stack. -/
  frames : ∀ id, left.world.frames id = ready.world.frames id
  /-- The working directory. -/
  directory : (left.world.directory.change (pathText ready.world.directory.current)).isOk →
    left.world.directory.current = ready.world.directory.current

section Stages

variable {profile : Profile σ} {body : Act σ StepFailure Value} {stack : StackId}
  {ready : Running σ}

theorem runInScope_of_error {error : WorkingDirectory.EnterError}
    (h : ready.world.directory.enter ready.task.project.repoRoot = .error error) :
    runInScope profile stack body ready =
      (.failed (.workingDirectory error.path error.reason),
        (ready.framed stack).onWorld (·.popFrame stack)) := by
  have hframed : (ready.framed stack).world.directory.enter
      (ready.framed stack).task.project.repoRoot = .error error := h
  rw [runInScope, withFrame_apply, withDirectory_of_error hframed]

theorem runInScope_of_ok {former : Path} {directory : WorkingDirectory}
    (h : ready.world.directory.enter ready.task.project.repoRoot = .ok (former, directory)) :
    runInScope profile stack body ready =
      ((runBody profile body ((ready.framed stack).entered former directory).capturing).1,
        (runBody profile body ((ready.framed stack).entered former directory).capturing).2.undo
          former stack) := by
  have hframed : (ready.framed stack).world.directory.enter
      (ready.framed stack).task.project.repoRoot = .ok (former, directory) := h
  rw [runInScope, withFrame_apply, withDirectory_of_ok hframed, withCapture_apply]
  rfl

/-- **The last two stages restore the frames and the working directory.** -/
theorem restores_runInScope (profile : Profile σ) (hbody : body.Kept) (stack : StackId)
    (hproper : ready.world.directory.Proper) :
    ready.Restores (runInScope profile stack body ready).2 := by
  -- the frames are kept in any case, so what is left is the directory
  refine ⟨(keptWorld_runInScope profile hbody stack ready).frames, ?_⟩
  cases henter : ready.world.directory.enter ready.task.project.repoRoot with
  | error error =>
    rw [runInScope_of_error henter]
    exact fun _ => rfl
  | ok entered =>
    obtain ⟨former, directory⟩ := entered
    have hformer := (WorkingDirectory.enter_eq_ok henter).1
    rw [runInScope_of_ok henter, ← hformer]
    -- leaving the guard does not touch the tree, so what can be entered after it could before
    exact fun h => WorkingDirectory.current_leave (hformer ▸ hproper)
      (WorkingDirectory.change_pathText_isOk (WorkingDirectory.tree_leave _ former).symm h)

end Stages

theorem closed_undo (r : Running σ) (former : Path) (stack : StackId) :
    (r.undo former stack).task.capture.Closed :=
  r.task.capture.closed_leave

/-- What waits when a scope is closed is logged, and nothing else. -/
theorem book_undo (r : Running σ) (former : Path) (stack : StackId) :
    (r.undo former stack).world.book =
      if r.task.capture.enabled then
        (r.world.logCaptured r.task.logger r.task.capture.remainders).book
      else r.world.book := by
  have hbook : (r.undo former stack).world.book =
      (r.world.logCaptured r.task.logger r.task.capture.leave.2).book := rfl
  rw [hbook, Capture.leave_lines]
  split
  · rfl
  · rfl

/-! ### Calls -/

theorem Act.andThen_of_done {ε ε' α β : Type} {act : Act σ ε α} {r left : Running σ} {value : α}
    (hact : act r = (.done value, left)) (f : ε → ε') (next : α → Act σ ε' β) :
    ((act.mapFailure f).andThen next) r = next value left := by
  rw [Act.andThen, Act.mapFailure, hact]
  rfl

namespace TaskKind

/-- A call that starts from `r` passes its hooks, and goes on from `ready`. -/
structure Passes (kind : TaskKind σ) (settings : EngineSettings) (limit : Nat)
    (r ready : Running σ) : Prop where
  /-- The org is there if the kind of task needs one. -/
  org : (kind.profile.requiresOrg && r.task.org.isNone) = false
  /-- The credentials are refreshed, and the task is initialised. -/
  hooks : ∃ refreshed value value',
    kind.hook settings limit .credentials r = (.done value, refreshed) ∧
      kind.hook settings limit .init refreshed = (.done value', ready)

/-- The body, as a call runs it: with the frame on the stack, in the directory of the project, and
with a capture scope open. -/
def runInside (kind : TaskKind σ) (settings : EngineSettings) (limit : Nat) (stack : StackId)
    (ready : Running σ) (former : Path) (directory : WorkingDirectory) :
    Outcome TaskError (OrderedMap Value) × Running σ :=
  runBody kind.profile (kind.hook settings limit .body)
    ((ready.framed stack).entered former directory).capturing

variable {kind : TaskKind σ} {settings : EngineSettings} {limit : Nat} {r ready : Running σ}

/-- After its hooks, a call consists of its last two stages, whatever the other parts are. -/
theorem Passes.callOn_eq (h : kind.Passes settings limit r ready)
    {hook : Hook → Act σ StepFailure Value}
    (hcredentials : hook .credentials = kind.hook settings limit .credentials)
    (hinit : hook .init = kind.hook settings limit .init) (stack : StackId) :
    callOn kind.profile hook stack r = runInScope kind.profile stack (hook .body) ready := by
  obtain ⟨refreshed, value, value', hrefreshed, hready⟩ := h.hooks
  rw [callOn, h.org, if_neg Bool.false_ne_true, hcredentials, Act.andThen_of_done hrefreshed, hinit,
    Act.andThen_of_done hready]

theorem call_of_passes (h : kind.Passes settings limit r ready) (stack : StackId) :
    kind.call settings limit stack r =
      runInScope kind.profile stack (kind.hook settings limit .body) ready :=
  h.callOn_eq rfl rfl stack

/-- The hooks conserve what single steps conserve. -/
theorem Passes.conserves (h : kind.Passes settings limit r ready) (c : Conserved) :
    c.Between r ready := by
  obtain ⟨refreshed, value, value', hcredentials, hinit⟩ := h.hooks
  have hrefreshed := (kind.conserves_hook c settings limit .credentials).of_eq hcredentials
  exact hrefreshed.trans ((kind.conserves_hook c settings limit .init).of_eq hinit)

theorem Passes.keeps (h : kind.Passes settings limit r ready) : r.Keeps ready :=
  (h.conserves .kept).keeps

/-- What the body starts from and where it ends agree on what a task keeps. -/
theorem keeps_runInside (kind : TaskKind σ) (settings : EngineSettings) (limit : Nat)
    (stack : StackId) (ready : Running σ) (former : Path) (directory : WorkingDirectory) :
    ((ready.framed stack).entered former directory).capturing.Keeps
      (kind.runInside settings limit stack ready former directory).2 :=
  kept_runBody kind.profile (kind.kept_hook settings limit .body) _

end TaskKind

/-! #### A task that goes astray -/

/-- A task that nothing was asked for but that its output be captured. -/
def TaskState.captured (className : String) (logger : Logger) : TaskState where
  id := 1
  className := className
  name := none
  stepNum := none
  project := .empty
  config := .empty
  org := none
  flow := none
  logger := logger
  debugMode := false
  sleeper := .record
  options := ∅
  returnValues := ∅
  poll := .initial
  result := none
  workingPath := none
  capture := .start true
  stack := StackStore.default

/-- Such a task, the first one of a process that runs in the directory `/home`. -/
def Running.atHome (className : String) : Running Unit :=
  let (logger, world) := (World.start ⟨[]⟩ ⟨⟨[["home"]], []⟩, ["home"]⟩).newDefaultLogger
  ⟨{ world with nextTaskId := 2 }, .captured className logger, ()⟩

/-- The profile of a kind of task that asks for nothing. -/
def Profile.named (className : String) : Profile Unit :=
  ⟨className, "", .empty, false, fun _ _ => true⟩

/-- Writes the start of a line, goes elsewhere and panics. -/
def TaskKind.straying : TaskKind Unit where
  profile := .named "Straying"
  part
    | .body => .andThen (.write .out [104, 105]) fun _ =>
        .andThen (.changeDirectory "/") fun _ => .panic "astray"
    | _ => .done .null

end TaskEngine
