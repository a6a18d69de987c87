import TaskEngine.Task.Body
import TaskEngine.Proofs.Files.Names
import TaskEngine.Proofs.Orgs.Refreshes

/-!
# What every part of a task conserves

Parts of tasks change the world and the state of their task in few ways only.  Something that none
of these ways can change is conserved by all that a part does, in loops and in calls of further
tasks too.  So what is conserved is given by two relations, one between worlds and one between
states of a task, with a law for each of the ways.

Of a task that is called by another one, only what it does to the world matters.  The frame that
its call pushes is gone when the call ends, so the law for frames is about both ends of a call.

## Main definitions

* `Conserved` — the two relations, with their laws.
* `Act.Conserves` — a step conserves something, however it ends.
* `Running.framed`, `Running.entered`, `Running.capturing` — what the body of a task starts from.
* `TaskKind.hookTo` — parts of a kind of task, followed to some depth.

## Main results

* `Act.Conserves.callOn` — a call conserves of the world what its hooks conserve.
* `Body.conserves_run` — **whatever a body does conserves what single steps conserve.**
-/

namespace TaskEngine

/-- Something that no step of a task changes: what holds between the world before and after it, and
between the states of the task. -/
structure Conserved where
  world : World → World → Prop
  task : TaskState → TaskState → Prop
  world_refl : ∀ w, world w w
  world_trans : ∀ {w w' w''}, world w w' → world w' w'' → world w w''
  /-- Lines are recorded, and hierarchies of loggers opened. -/
  recorded : ∀ (w : World) (book : LogBook), world w { w with book }
  waited : ∀ (w : World) (waits : List Wait), world w { w with waits }
  /-- Bytes are passed on to the streams of the process. -/
  passed : ∀ (w : World) (processOut processErr : Bytes),
    world w { w with processOut, processErr }
  /-- The credentials of an org are refreshed. -/
  refreshed : ∀ (w : World) (id : OrgId) (keychain : Option Keychain) (logger : Logger),
    world w (w.refreshCredentials id keychain logger).2
  moved : ∀ (w : World) (directory : WorkingDirectory),
    (w.directory.Proper → directory.Proper) → world w { w with directory }
  /-- Numbers are given to tasks. -/
  counted : ∀ (w : World) (nextTaskId : Nat), w.nextTaskId ≤ nextTaskId →
    world w { w with nextTaskId }
  /-- A frame is pushed before something else is done, and taken off after it. -/
  framed : ∀ {w w' : World} {stack : StackId} {frame : Frame},
    world (w.pushFrame stack frame) w' → world w (w'.popFrame stack)
  task_refl : ∀ t, task t t
  task_trans : ∀ {t t' t''}, task t t' → task t' t'' → task t t''
  edited : ∀ (t : TaskState) (options : Options) (returnValues : OrderedMap Value)
    (poll : PollState), task t { t with options, returnValues, poll }
  captured : ∀ (t : TaskState) (capture : Capture), capture.enabled = t.capture.enabled →
    task t { t with capture }

namespace Conserved

variable (c : Conserved)

/-! ### The world -/

theorem log (w : World) (logger : Logger) (level : LogLevel) (message : String) :
    c.world w (w.log logger level message) :=
  c.recorded w _

theorem logCaptured (w : World) (logger : Logger) (lines : List CapturedLine) :
    c.world w (w.logCaptured logger lines) := by
  induction lines generalizing w with
  | nil => exact c.world_refl w
  | cons line lines ih => exact c.world_trans (c.log w _ _ _) (ih _)

theorem logAll (w : World) (logger : Logger) (level : LogLevel) (messages : List String) :
    c.world w (Builder.logAll w logger level messages) := by
  induction messages generalizing w with
  | nil => exact c.world_refl w
  | cons message messages ih => exact c.world_trans (c.log w _ _ _) (ih _)

theorem accept (w : World) (logger : Logger) (transcript : Transcript) :
    c.world w (w.accept logger transcript) := by
  have hlines := c.logCaptured w logger transcript.lines
  rw [World.accept]
  split
  · rename_i stream bytes _
    refine c.world_trans hlines ?_
    cases stream with
    | out => exact c.passed _ _ _
    | err => exact c.passed _ _ _
  · exact hlines

theorem changeDirectory {w w' : World} {path : String} (h : w.changeDirectory path = .ok w') :
    c.world w w' := by
  rw [World.changeDirectory] at h
  cases hchange : w.directory.change path with
  | error reason =>
    rw [hchange] at h
    simp [Except.map] at h
  | ok directory =>
    rw [hchange] at h
    rw [← Except.ok.inj h]
    exact c.moved w directory fun hproper => WorkingDirectory.proper_of_change hproper hchange

theorem removeDirectory (w : World) (path : String) :
    c.world w { w with directory := (w.directory.remove path).2 } := by
  refine c.moved w _ fun hproper => ?_
  rw [WorkingDirectory.Proper, WorkingDirectory.current_remove]
  exact hproper

theorem enter {w : World} {target : Option String} {former : Path} {directory : WorkingDirectory}
    (h : w.directory.enter target = .ok (former, directory)) :
    c.world w { w with directory } := by
  rcases (WorkingDirectory.enter_eq_ok h).2 with rfl | ⟨path, hchange⟩
  · exact c.world_refl w
  · exact c.moved w directory fun hproper => WorkingDirectory.proper_of_change hproper hchange

theorem leave (w : World) (former : Path) :
    c.world w { w with directory := w.directory.leave former } :=
  c.moved w _ fun hproper => WorkingDirectory.proper_leave hproper _

theorem build {σ : Type} (builder : Builder) (settings : EngineSettings) (profile : Profile σ)
    (w : World) : c.world w (builder.build settings profile w).2 := by
  have hlogger : c.world w (builder.taskLogger profile.className w).2 := by
    rw [Builder.taskLogger]
    split
    · exact c.world_refl w
    · exact c.world_refl w
    · exact c.recorded w _
  rw [Builder.build]
  dsimp only
  -- a task that cannot be constructed has still left its warnings
  have hwarned := c.world_trans hlogger (c.logAll _ (builder.taskLogger profile.className w).1
    .warning ((builder.resolveOptions profile.schema).2.map Builder.undefinedNotice))
  split
  · exact hwarned
  · refine c.world_trans hwarned ?_
    split
    · exact c.world_trans (c.logAll _ _ _ _) (c.counted _ _ (Nat.le_succ _))
    · exact c.counted _ _ (Nat.le_succ _)

end Conserved

/-! ### What a part works on -/

theorem Capture.enabled_write (capture : Capture) (stream : Stream) (bytes : Bytes) :
    (capture.write stream bytes).1.enabled = capture.enabled := by
  rw [write]
  split
  · cases stream
    · rfl
    · rfl
  · rfl

variable {σ : Type}

/-- Both relations hold. -/
structure Conserved.Between (c : Conserved) (r r' : Running σ) : Prop where
  world : c.world r.world r'.world
  task : c.task r.task r'.task

namespace Conserved.Between

variable {c : Conserved} {r r' r'' : Running σ}

theorem refl (r : Running σ) : c.Between r r := ⟨c.world_refl _, c.task_refl _⟩

theorem trans (h : c.Between r r') (h' : c.Between r' r'') : c.Between r r'' :=
  ⟨c.world_trans h.world h'.world, c.task_trans h.task h'.task⟩

/-- What is done to the world alone. -/
theorem onWorld {r : Running σ} {world : World} (h : c.world r.world world) :
    c.Between r { r with world } :=
  ⟨h, c.task_refl _⟩

theorem log (r : Running σ) (level : LogLevel) (message : String) :
    c.Between r (r.log level message) :=
  .onWorld (c.log _ _ _ _)

theorem sleep (r : Running σ) (duration : Duration) : c.Between r (r.sleep duration) :=
  .onWorld (c.waited _ _)

theorem write (r : Running σ) (stream : Stream) (bytes : Bytes) :
    c.Between r (r.write stream bytes) :=
  ⟨c.accept _ _ _, c.captured _ _ (Capture.enabled_write _ _ _)⟩

theorem withLocal (r : Running σ) (changed : Local σ) : c.Between r (r.withLocal changed) :=
  ⟨c.world_refl _, c.edited _ _ _ _⟩

theorem setOption (r : Running σ) (key : String) (value : Value) :
    c.Between r (r.onTask (·.setOption key value)) :=
  ⟨c.world_refl _, c.edited r.task (r.task.options.insert key value) _ _⟩

theorem withPoll (r : Running σ) (poll : PollState) :
    c.Between r (r.onTask fun task => { task with poll }) :=
  ⟨c.world_refl _, c.edited r.task _ _ poll⟩

end Conserved.Between

/-! ### Steps -/

variable {ε ε' α β : Type}

/-- The step conserves something, however it ends. -/
def Act.Conserves (act : Act σ ε α) (c : Conserved) : Prop :=
  ∀ r : Running σ, c.Between r (act r).2

/-- The step conserves something of the world, however it ends. -/
def Act.ConservesWorld (act : Act σ ε α) (c : Conserved) : Prop :=
  ∀ r : Running σ, c.world r.world (act r).2.world

namespace Act

variable {c : Conserved}

theorem conserves_unfinished : Conserves (fun r => (.unfinished, r) : Act σ ε α) c :=
  fun r => .refl r

theorem Conserves.of_eq {act : Act σ ε α} (h : act.Conserves c) {r r' : Running σ}
    {outcome : Outcome ε α} (hact : act r = (outcome, r')) : c.Between r r' := by
  have hconserves := h r
  rw [hact] at hconserves
  exact hconserves

theorem Conserves.andThen {first : Act σ ε α} {next : α → Act σ ε β} (hfirst : first.Conserves c)
    (hnext : ∀ value, (next value).Conserves c) : (first.andThen next).Conserves c := by
  intro r
  rw [Act.andThen]
  split
  · rename_i value r' h
    exact (hfirst.of_eq h).trans (hnext value r')
  all_goals
    rename_i h
    exact hfirst.of_eq h

theorem Conserves.recover {first : Act σ ε α} {next : Except ε α → Act σ ε' β}
    (hfirst : first.Conserves c) (hnext : ∀ result, (next result).Conserves c) :
    (first.recover next).Conserves c := by
  intro r
  rw [Act.recover]
  split
  · rename_i value r' h
    exact (hfirst.of_eq h).trans (hnext _ r')
  · rename_i error r' h
    exact (hfirst.of_eq h).trans (hnext _ r')
  all_goals
    rename_i h
    exact hfirst.of_eq h

theorem Conserves.mapFailure {act : Act σ ε α} (h : act.Conserves c) (f : ε → ε') :
    (act.mapFailure f).Conserves c :=
  fun r => h r

theorem Conserves.voidly {act : Act σ Failure Unit} (h : act.Conserves c) :
    act.voidly.Conserves c :=
  fun r => h r

theorem Conserves.andThen_world {first : Act σ ε α} {next : α → Act σ ε β}
    (hfirst : first.Conserves c) (hnext : ∀ value, (next value).ConservesWorld c) :
    (first.andThen next).ConservesWorld c := by
  intro r
  rw [Act.andThen]
  split
  · rename_i value r' h
    exact c.world_trans (hfirst.of_eq h).world (hnext value r')
  all_goals
    rename_i h
    exact (hfirst.of_eq h).world

theorem Conserves.attemptStep {act : Act σ StepFailure Value} (h : act.Conserves c)
    (profile : Profile σ) : (attemptStep profile act).Conserves c := by
  intro r
  rw [TaskEngine.attemptStep]
  split
  · rename_i step r' hact
    split
    · exact h.of_eq hact
    · exact h.of_eq hact
  · exact h r

end Act

/-! #### Loops -/

section Loops

variable (c : Conserved)

theorem conserves_waitForRetry (settings : RetrySettings) :
    (waitForRetry settings : Act σ Failure Unit).Conserves c := by
  intro r
  have hwaits : ∀ wait,
      c.Between r ((r.log .warning (sleepingNotice settings.interval)).sleep wait) :=
    fun wait => (Conserved.Between.log r _ _).trans (.sleep _ _)
  rw [waitForRetry]
  split
  · split
    · exact .refl r
    · dsimp only
      split
      · split
        · exact (hwaits _).trans (.setOption _ _ _)
        · exact hwaits _
      · exact hwaits _
  · exact .refl r

theorem conserves_afterFailure (step : StepFailure) :
    (afterFailure step : Act σ Failure Unit).Conserves c := by
  intro r
  have hlog : c.Between r (r.log .warning step.message) := .log r _ _
  rw [afterFailure]
  dsimp only
  split
  · exact hlog
  · rename_i settings _
    split
    · split
      · rename_i h
        exact (hlog.trans ((conserves_waitForRetry c settings).of_eq h)).trans
          ((Conserved.Between.setOption _ _ _).trans (.log _ _ _))
      · exact hlog.trans (conserves_waitForRetry c settings _)
    · exact hlog

theorem conserves_waitForPoll (r : Running σ) : c.Between r (waitForPoll r) := by
  have hsleep : ∀ duration, c.Between r (r.sleep duration) := fun _ => .sleep r _
  rw [waitForPoll]
  split
  · exact ((hsleep _).trans (.withPoll _ _)).trans (.log _ _ _)
  · exact hsleep _

variable {c}

/-- Retrying conserves what every attempt conserves: by induction on the bound. -/
theorem conserves_retryFrom {attempt : Nat → Act σ StepFailure α}
    (h : ∀ n, (attempt n).Conserves c) (limit n : Nat) :
    (retryFrom attempt limit n).Conserves c := by
  -- the bound goes down by one with each round, whichever number it has
  induction limit generalizing n with
  | zero => exact fun r => .refl r
  | succ limit ih =>
    intro r
    rw [retryFrom]
    split
    · rename_i hact
      exact (h n).of_eq hact
    · rename_i hact
      exact (h n).of_eq hact
    · rename_i hact
      exact (h n).of_eq hact
    · rename_i step r' hact
      have hafter := ((h n).of_eq hact).trans (conserves_afterFailure c step r')
      split
      · rename_i hwait
        rw [hwait] at hafter
        exact hafter.trans (ih (n + 1) _)
      all_goals
        rename_i hwait
        rw [hwait] at hafter
        exact hafter

/-- Polling conserves what every look conserves: by induction on the bound. -/
theorem conserves_pollFrom {look : Nat → Act σ StepFailure Value}
    (h : ∀ n, (look n).Conserves c) (limit n : Nat) : (pollFrom look limit n).Conserves c := by
  induction limit generalizing n with
  | zero => exact fun r => .refl r
  | succ limit ih =>
    intro r
    -- every look is counted first
    have htick : c.Between r (r.onTask fun task => { task with poll := task.poll.tick }) :=
      .withPoll r r.task.poll.tick
    rw [pollFrom]
    split
    · rename_i hact
      exact (htick.trans ((h n).of_eq hact)).trans (.log _ _ _)
    · rename_i hact
      exact htick.trans ((h n).of_eq hact)
    · rename_i hact
      exact htick.trans ((h n).of_eq hact)
    · rename_i r' hact
      have hlook := htick.trans ((h n).of_eq hact)
      split
      · exact hlook
      · exact (hlook.trans (conserves_waitForPoll c r')).trans (ih (n + 1) _)

end Loops

/-! #### Single steps -/

theorem conserves_changeDirectory (c : Conserved) (path : String) :
    (Act.changeDirectory path : Act σ Failure Unit).Conserves c := by
  intro r
  rw [Act.changeDirectory]
  split
  · rename_i h
    exact .onWorld (c.changeDirectory h)
  · exact .refl r

theorem conserves_refreshOwnCredentials (c : Conserved) (profile : Profile σ) :
    (refreshOwnCredentials profile).Conserves c := by
  intro r
  rw [refreshOwnCredentials]
  split
  · split
    · exact .onWorld (c.refreshed _ _ _ _)
    · exact .refl r
  · exact .refl r

theorem conserves_announce (c : Conserved) (profile : Profile σ) (r : Running σ) :
    c.Between r (announce profile r) := by
  rw [announce]
  generalize banner profile r = lines
  induction lines generalizing r with
  | nil => exact .refl r
  | cons line lines ih => exact (Conserved.Between.log r _ _).trans (ih _)

/-! ### Calls -/

/-! #### What the body of a task starts from -/

namespace Running

/-- The frame of the task is pushed onto a stack. -/
def framed (r : Running σ) (stack : StackId) : Running σ :=
  { r with
    task := { r.task with stack }
    world := r.world.pushFrame stack r.task.frame }

/-- A directory is entered, and the former one is noted. -/
def entered (r : Running σ) (former : Path) (directory : WorkingDirectory) : Running σ :=
  { r with
    task := { r.task with workingPath := some former }
    world := { r.world with directory } }

/-- A capture scope is opened. -/
def capturing (r : Running σ) : Running σ :=
  r.onTask fun task => { task with capture := task.capture.enter }

end Running

theorem withFrame_apply (stack : StackId) (act : Act σ ε α) (r : Running σ) :
    withFrame stack act r =
      ((act (r.framed stack)).1, (act (r.framed stack)).2.onWorld (·.popFrame stack)) :=
  rfl

theorem withDirectory_of_ok {act : Act σ TaskError α} {r : Running σ} {former : Path}
    {directory : WorkingDirectory}
    (h : r.world.directory.enter r.task.project.repoRoot = .ok (former, directory)) :
    withDirectory act r = ((act (r.entered former directory)).1,
      (act (r.entered former directory)).2.onWorld fun world =>
        { world with directory := world.directory.leave former }) := by
  rw [withDirectory, h]
  rfl

theorem withDirectory_of_error {act : Act σ TaskError α} {r : Running σ}
    {error : WorkingDirectory.EnterError}
    (h : r.world.directory.enter r.task.project.repoRoot = .error error) :
    withDirectory act r = (.failed (.workingDirectory error.path error.reason), r) := by
  rw [withDirectory, h]

theorem withCapture_apply (act : Act σ ε α) (r : Running σ) :
    withCapture act r = ((act r.capturing).1, closeCapture (act r.capturing).2) :=
  rfl

/-! #### The stages of a call -/

namespace Act

variable {c : Conserved}

theorem ConservesWorld.withCapture {act : Act σ ε α} (h : act.ConservesWorld c) :
    (withCapture act).ConservesWorld c := by
  intro r
  rw [withCapture_apply]
  exact c.world_trans (h r.capturing) (c.logCaptured _ _ _)

theorem ConservesWorld.withDirectory {act : Act σ TaskError α} (h : act.ConservesWorld c) :
    (withDirectory act).ConservesWorld c := by
  intro r
  -- nothing is to be undone if the directory cannot be entered
  cases henter : r.world.directory.enter r.task.project.repoRoot with
  | error error =>
    rw [withDirectory_of_error henter]
    exact c.world_refl _
  | ok entered =>
    obtain ⟨former, directory⟩ := entered
    rw [withDirectory_of_ok henter]
    have hact := c.world_trans (c.enter henter) (h (r.entered former directory))
    exact c.world_trans hact (c.leave _ _)

theorem ConservesWorld.withFrame {act : Act σ ε α} (h : act.ConservesWorld c) (stack : StackId) :
    (withFrame stack act).ConservesWorld c := by
  intro r
  rw [withFrame_apply]
  exact c.framed (h (r.framed stack))

theorem Conserves.runBody {body : Act σ StepFailure Value} (h : body.Conserves c)
    (profile : Profile σ) : (runBody profile body).ConservesWorld c := by
  intro r
  have hannounced := (conserves_announce c profile r).world
  rw [TaskEngine.runBody]
  split
  all_goals
    rename_i hbody
    exact c.world_trans hannounced (h.of_eq hbody).world

/-- The last two stages of a call conserve of the world what the body conserves. -/
theorem Conserves.runInScope {body : Act σ StepFailure Value} (h : body.Conserves c)
    (profile : Profile σ) (stack : StackId) : (runInScope profile stack body).ConservesWorld c :=
  (h.runBody profile).withCapture.withDirectory.withFrame stack

/-- A call conserves of the world what its hooks conserve, however it ends. -/
theorem Conserves.callOn {hook : Hook → Act σ StepFailure Value}
    (h : ∀ part, (hook part).Conserves c) (profile : Profile σ) (stack : StackId) :
    (callOn profile hook stack).ConservesWorld c := by
  intro r
  rw [TaskEngine.callOn]
  split
  · exact c.world_refl _
  · refine Conserves.andThen_world ((h .credentials).mapFailure _) (fun _ => ?_) r
    refine Conserves.andThen_world ((h .init).mapFailure _) fun _ => ?_
    exact (h .body).runInScope profile stack

theorem Conserves.invoke {hook : Hook → Act σ StepFailure Value}
    (h : ∀ part, (hook part).Conserves c) (settings : EngineSettings) (profile : Profile σ)
    (own : σ) (builder : Builder) (stack : Option StackId) :
    (invoke settings profile hook own builder stack).Conserves c := by
  intro r
  have hbuild := c.build builder settings profile r.world
  rw [Act.invoke]
  split
  · rename_i error world hbuilt
    rw [hbuilt] at hbuild
    exact .onWorld hbuild
  · rename_i task world hbuilt
    rw [hbuilt] at hbuild
    -- of the called task only what it did to the world is left
    have hcall := c.world_trans hbuild
      (Conserves.callOn h profile (stack.getD r.task.stack) ⟨world, task, own⟩)
    split
    · rename_i hcalled
      rw [hcalled] at hcall
      exact .onWorld hcall
    · rename_i hcalled
      rw [hcalled] at hcall
      exact .onWorld hcall

end Act

/-! ### Bodies -/

/-- What holds of the start and is kept by every step holds of all steps. -/
theorem iterateHook_induction {γ δ : Type} {p : δ → Prop} {step : (γ → δ) → γ → δ} {start : γ → δ}
    (hstart : ∀ x, p (start x)) (hstep : ∀ inner, (∀ x, p (inner x)) → ∀ x, p (step inner x))
    (limit : Nat) (x : γ) : p (iterateHook step start limit x) := by
  induction limit generalizing x with
  | zero => exact hstart x
  | succ limit ih => exact hstep _ ih x

/-- **Whatever a body does conserves what single steps conserve**: by induction on the body. -/
theorem Body.conserves_run (body : Body σ) (c : Conserved) (around : Surroundings σ)
    (h : ∀ part, (around.hook part).Conserves c) : (body.run around).Conserves c := by
  induction body generalizing around with
  | done value => exact fun r => .refl r
  | fail step => exact fun r => .refl r
  | panic message => exact fun r => .refl r
  | andThen first next ihfirst ihnext =>
    exact (ihfirst around h).andThen fun value => ihnext value around h
  | recover first next ihfirst ihnext =>
    exact (ihfirst around h).recover fun result => ihnext result around h
  | see next ih => exact fun r => ih r around h r
  | edit change => exact fun r => .withLocal r _
  | log level message => exact fun r => .log r level message
  | write stream bytes => exact fun r => .write r stream bytes
  | sleep duration => exact fun r => .sleep r duration
  | changeDirectory path => exact (conserves_changeDirectory c path).voidly
  | removeDirectory path => exact fun r => .onWorld (c.removeDirectory _ _)
  | openLogger name limit next ih =>
    exact fun r => (Conserved.Between.onWorld (c.recorded r.world _)).trans (ih _ around h _)
  | retrying attempt ih => exact (conserves_retryFrom (fun n => ih n around h) _ 0).mapFailure _
  | polling look ih => exact (conserves_pollFrom (fun n => ih n around h) _ 0).voidly
  | retryStep =>
    exact (conserves_retryFrom (fun _ => (h .tryStep).attemptStep _) _ 0).mapFailure _
  | pollStep => exact (conserves_pollFrom (fun _ => h .pollAction) _ 0).voidly
  | refreshCredentials => exact (conserves_refreshOwnCredentials c _).voidly
  | invoke profile part own builder stack next ihpart ihnext =>
    refine Act.Conserves.andThen (Act.Conserves.invoke (fun other => ?_) _ _ _ _ _)
      fun invocation => ihnext invocation around h
    -- the parts of the called task are followed to a bounded depth
    refine iterateHook_induction (p := fun act => Act.Conserves act c)
      (fun _ => Act.conserves_unfinished) (fun inner hinner other => ?_) _ other
    exact ihpart other ⟨around.limit, around.settings, profile, inner⟩ hinner

namespace TaskKind

/-- What the parts of a kind of task do if a part that runs itself is followed to a given depth. -/
def hookTo (kind : TaskKind σ) (settings : EngineSettings) (limit depth : Nat) :
    Hook → Act σ StepFailure Value :=
  iterateHook (fun inner hook => (kind.part hook).run ⟨limit, settings, kind.profile, inner⟩)
    (fun _ r => (.unfinished, r)) depth

theorem conserves_hookTo (kind : TaskKind σ) (c : Conserved) (settings : EngineSettings)
    (limit depth : Nat) (part : Hook) : (kind.hookTo settings limit depth part).Conserves c := by
  refine iterateHook_induction (p := fun act => Act.Conserves act c)
    (fun _ => Act.conserves_unfinished) (fun inner hinner other => ?_) _ part
  exact (kind.part other).conserves_run c ⟨limit, settings, kind.profile, inner⟩ hinner

/-- The parts of every kind of task conserve what single steps conserve. -/
theorem conserves_hook (kind : TaskKind σ) (c : Conserved) (settings : EngineSettings)
    (limit : Nat) (part : Hook) : (kind.hook settings limit part).Conserves c :=
  kind.conserves_hookTo c settings limit limit part

end TaskKind

end TaskEngine
