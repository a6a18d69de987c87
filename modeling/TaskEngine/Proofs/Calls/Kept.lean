import TaskEngine.Proofs.Calls.Conserved

/-!
# What the parts of tasks keep

Whatever a part of a task does, it leaves the frames of all stacks as they are: tasks that it
calls push frames, but each call takes its frame off again.  Neither can it change what was
settled when its task was constructed, or take back a number that was given to a task.

One relation says what is kept.  It obeys the laws of something that is conserved, so it holds of
a whole run.

## Main definitions

* `World.Keeps`, `Running.Keeps` — what is kept of the world, and of what a part works on.
* `Act.Kept` — a step keeps all that.
* `Conserved.kept` — the relation, with its laws.

## Main results

* `keptWorld_callOn` — a call keeps the frames of all stacks.
* `Body.kept_run` — **so does whatever a body does.**
* `TaskKind.kept_hook` — and so do the parts of every kind of task.
-/

namespace TaskEngine

/-! ### The world -/

/-- The frames of all stacks are kept, the working directory stays proper, and no number is given
to a task again. -/
structure World.Keeps (world world' : World) : Prop where
  /-- The frames on every stack. -/
  frames : ∀ id, world'.frames id = world.frames id
  /-- The current directory is a proper place if it was one. -/
  proper : world.directory.Proper → world'.directory.Proper
  /-- The number of the task constructed next. -/
  nextTaskId : world.nextTaskId ≤ world'.nextTaskId

namespace World

variable {world world' world'' : World}

theorem Keeps.refl (world : World) : world.Keeps world := ⟨fun _ => rfl, id, Nat.le.refl⟩

theorem Keeps.trans (h : world.Keeps world') (h' : world'.Keeps world'') :
    world.Keeps world'' :=
  ⟨fun id => (h'.frames id).trans (h.frames id), h'.proper ∘ h.proper,
    Nat.le_trans h.nextTaskId h'.nextTaskId⟩

/-- Changes elsewhere keep the stacks and the directory. -/
theorem Keeps.of_eq (hstacks : world'.taskStacks = world.taskStacks)
    (hdirectory : world'.directory = world.directory)
    (hnext : world.nextTaskId ≤ world'.nextTaskId) : world.Keeps world' := by
  refine ⟨fun id => ?_, ?_, hnext⟩
  · rw [World.frames, World.frames, hstacks]
  · rw [hdirectory]
    exact id

/-- A change of the working directory keeps the stacks. -/
theorem keeps_withDirectory {directory : WorkingDirectory}
    (hproper : world.directory.Proper → directory.Proper) : world.Keeps { world with directory } :=
  ⟨fun _ => rfl, hproper, Nat.le.refl⟩

/-- What is done with an org has nothing to do with all that. -/
theorem keeps_refreshCredentials (world : World) (id : OrgId) (keychain : Option Keychain)
    (logger : Logger) : world.Keeps (world.refreshCredentials id keychain logger).2 := by
  rcases world.refreshCredentials_or id keychain logger with h | ⟨org, -, h⟩
  · rw [h]
    exact .refl world
  · rw [h]
    exact .of_eq rfl rfl Nat.le.refl

/-! #### Frames -/

theorem frames_pushFrame (world : World) (stack id : StackId) (frame : Frame) :
    (world.pushFrame stack frame).frames id =
      if id = stack then world.frames id ++ [frame] else world.frames id := by
  rw [frames, pushFrame, StackStore.modify, StackStore.get_set]
  split
  · rename_i h
    rw [h]
    rfl
  · rfl

theorem frames_popFrame (world : World) (stack id : StackId) :
    (world.popFrame stack).frames id =
      if id = stack then (world.frames id).dropLast else world.frames id := by
  rw [frames, popFrame, StackStore.modify, StackStore.get_set]
  split
  · rename_i h
    rw [h]
    rfl
  · rfl

/-- What happens between a push and the pop for it keeps the frames if the rest does. -/
theorem keeps_of_pushFrame {stack : StackId} {frame : Frame}
    (h : (world.pushFrame stack frame).Keeps world') : world.Keeps (world'.popFrame stack) := by
  refine ⟨fun id => ?_, h.proper, h.nextTaskId⟩
  -- the frame that is taken off is the one that was pushed
  rw [frames_popFrame, h.frames, frames_pushFrame]
  split
  · exact List.dropLast_concat
  · rfl

end World

/-! ### The state of a task -/

/-- What is kept of the state of a task: what describes it on a stack, its logger, the stack it
was called on, and whether its output can be captured. -/
structure TaskState.Keeps (task task' : TaskState) : Prop where
  /-- The frame. -/
  frame : task'.frame = task.frame
  /-- The logger. -/
  logger : task'.logger = task.logger
  /-- The stack. -/
  stack : task'.stack = task.stack
  /-- Whether its output is captured at all. -/
  enabled : task'.capture.enabled = task.capture.enabled

theorem TaskState.Keeps.refl (task : TaskState) : task.Keeps task := ⟨rfl, rfl, rfl, rfl⟩

theorem TaskState.Keeps.trans {task task' task'' : TaskState} (h : task.Keeps task')
    (h' : task'.Keeps task'') : task.Keeps task'' :=
  ⟨h'.frame.trans h.frame, h'.logger.trans h.logger, h'.stack.trans h.stack,
    h'.enabled.trans h.enabled⟩

/-- What parts of tasks keep, as something that is conserved. -/
def Conserved.kept : Conserved where
  world := World.Keeps
  task := TaskState.Keeps
  world_refl := .refl
  world_trans := .trans
  recorded _ _ := .of_eq rfl rfl Nat.le.refl
  waited _ _ := .of_eq rfl rfl Nat.le.refl
  passed _ _ _ := .of_eq rfl rfl Nat.le.refl
  refreshed := World.keeps_refreshCredentials
  moved _ _ hproper := World.keeps_withDirectory hproper
  counted _ _ hnext := .of_eq rfl rfl hnext
  framed := World.keeps_of_pushFrame
  task_refl := .refl
  task_trans := .trans
  edited _ _ _ _ := ⟨rfl, rfl, rfl, rfl⟩
  captured _ _ henabled := ⟨rfl, rfl, rfl, henabled⟩

theorem World.keeps_build {σ : Type} (builder : Builder) (settings : EngineSettings)
    (profile : Profile σ) (world : World) :
    world.Keeps (builder.build settings profile world).2 :=
  Conserved.kept.build builder settings profile world

/-! ### What a part works on -/

variable {σ : Type}

/-- What is kept of the world, and of the state of the task. -/
structure Running.Keeps (r r' : Running σ) : Prop where
  /-- What is kept of the world. -/
  world : r.world.Keeps r'.world
  /-- What is kept of the task. -/
  task : r.task.Keeps r'.task

namespace Running

variable {r r' r'' : Running σ}

theorem Keeps.refl (r : Running σ) : r.Keeps r := ⟨.refl _, .refl _⟩

theorem Keeps.trans (h : r.Keeps r') (h' : r'.Keeps r'') : r.Keeps r'' :=
  ⟨h.world.trans h'.world, h.task.trans h'.task⟩

theorem keeps_newLogger (r : Running σ) (name : String) (limit : Nat) :
    r.Keeps { r with world := (r.world.newLogger name limit).2 } :=
  ⟨Conserved.kept.recorded _ _, .refl _⟩

theorem keeps_withPoll (r : Running σ) (poll : PollState) :
    r.Keeps (r.onTask fun task => { task with poll }) :=
  ⟨.refl _, rfl, rfl, rfl, rfl⟩

end Running

theorem Conserved.Between.keeps {r r' : Running σ} (h : Conserved.kept.Between r r') : r.Keeps r' :=
  ⟨h.world, h.task⟩

/-! ### Steps -/

variable {ε α : Type}

/-- The step keeps what is kept, however it ends. -/
def Act.Kept (act : Act σ ε α) : Prop := ∀ r : Running σ, r.Keeps (act r).2

/-- The step keeps what is kept of the world, however it ends. -/
def Act.KeptWorld (act : Act σ ε α) : Prop := ∀ r : Running σ, r.world.Keeps (act r).2.world

namespace Act

theorem Kept.conserves {act : Act σ ε α} (h : act.Kept) : act.Conserves .kept :=
  fun r => ⟨(h r).world, (h r).task⟩

theorem Conserves.kept {act : Act σ ε α} (h : act.Conserves .kept) : act.Kept :=
  fun r => (h r).keeps

theorem Kept.of_eq {act : Act σ ε α} (h : act.Kept) {r r' : Running σ} {outcome : Outcome ε α}
    (hact : act r = (outcome, r')) : r.Keeps r' :=
  (h.conserves.of_eq hact).keeps

end Act

theorem kept_attemptStep (profile : Profile σ) {act : Act σ StepFailure Value} (h : act.Kept) :
    (attemptStep profile act).Kept :=
  (h.conserves.attemptStep profile).kept

theorem kept_afterFailure (step : StepFailure) : (afterFailure step : Act σ Failure Unit).Kept :=
  (conserves_afterFailure .kept step).kept

theorem keeps_waitForPoll (r : Running σ) : r.Keeps (waitForPoll r) :=
  (conserves_waitForPoll .kept r).keeps

/-! ### Calls -/

theorem keeps_announce (profile : Profile σ) (r : Running σ) : r.Keeps (announce profile r) :=
  (conserves_announce .kept profile r).keeps

/-- The result is not among what is kept, so what the body keeps is kept up to the end. -/
theorem kept_runBody (profile : Profile σ) {body : Act σ StepFailure Value}
    (h : body.Kept) : (runBody profile body).Kept := by
  intro r
  have hannounced := keeps_announce profile r
  rw [runBody]
  split
  · rename_i hbody
    exact (hannounced.trans (h.of_eq hbody)).trans ⟨.refl _, rfl, rfl, rfl, rfl⟩
  all_goals
    rename_i hbody
    exact hannounced.trans (h.of_eq hbody)

/-- The last two stages of a call keep the frames of all stacks. -/
theorem keptWorld_runInScope (profile : Profile σ) {body : Act σ StepFailure Value}
    (h : body.Kept) (stack : StackId) : (runInScope profile stack body).KeptWorld :=
  h.conserves.runInScope profile stack

/-- **A call keeps the frames of all stacks**, however it ends. -/
theorem keptWorld_callOn (profile : Profile σ) {hook : Hook → Act σ StepFailure Value}
    (h : ∀ part, (hook part).Kept) (stack : StackId) : (callOn profile hook stack).KeptWorld :=
  Act.Conserves.callOn (fun part => (h part).conserves) profile stack

theorem kept_invoke (settings : EngineSettings) (profile : Profile σ)
    {hook : Hook → Act σ StepFailure Value} (h : ∀ part, (hook part).Kept) (own : σ)
    (builder : Builder) (stack : Option StackId) :
    (Act.invoke settings profile hook own builder stack).Kept :=
  (Act.Conserves.invoke (fun part => (h part).conserves) settings profile own builder stack).kept

/-! ### Bodies -/

/-- **Whatever a body does keeps the frames of all stacks.** -/
theorem Body.kept_run (body : Body σ) (around : Surroundings σ)
    (h : ∀ part, (around.hook part).Kept) : (body.run around).Kept :=
  (body.conserves_run .kept around fun part => (h part).conserves).kept

namespace TaskKind

variable (kind : TaskKind σ) (settings : EngineSettings) (limit : Nat)

theorem kept_hookTo (depth : Nat) (part : Hook) :
    (kind.hookTo settings limit depth part).Kept :=
  (kind.conserves_hookTo .kept settings limit depth part).kept

/-- The parts of every kind of task keep the frames of all stacks. -/
theorem kept_hook (part : Hook) : (kind.hook settings limit part).Kept :=
  (kind.conserves_hook .kept settings limit part).kept

end TaskKind

end TaskEngine
