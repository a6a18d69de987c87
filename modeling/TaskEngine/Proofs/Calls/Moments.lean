import TaskEngine.Proofs.Calls.Restored

/-!
# The moments of a call

The body of a task may call further tasks, one after another, and the parts of those may do the
same.  A *moment* of such a run is what some part of some task finds before one of its steps, or
leaves behind after it, together with the calls that are open there.

The moments are described by rules: one for every way in which a term goes on, and one for every
stage of a call that brings along a part.  What happens in between is what `Body.run` says.

Two conditions are enough for a property to hold at all moments of a call: what a part keeps does
not affect it, and the stages of a call carry it along.

## Main definitions

* `OpenCall`, `Moment` — a call that has not ended, and a point of a run.
* `RetryStarts`, `PollStarts` — how the rounds of loops start.
* `Reaches` — a run comes to a moment.
* `Carried` — the stages of a call carry a property along.

## Main results

* `RetryStarts.keeps`, `PollStarts.keeps` — later rounds start with what the rounds before keep.
* `Reaches.holds` — **a property that is carried along holds at all moments.**
-/

namespace TaskEngine

/-- A call that has not ended. -/
structure OpenCall where
  /-- The stack on which the task is called. -/
  stack : StackId
  /-- What describes the task on a stack. -/
  frame : Frame
  /-- Whether the stage of the body has been entered; before, the hooks run. -/
  inBody : Bool

/-- A point of a run. -/
structure Moment (σ : Type) where
  /-- The calls that are open, the outermost first; the last one is of the task that runs. -/
  calls : List OpenCall
  /-- What that task works on. -/
  running : Running σ

variable {σ α : Type}

/-! ### Rounds of loops -/

/-- Among attempts that are made from `r`, that of number `n` starts from another state. -/
inductive RetryStarts (attempt : Nat → Act σ StepFailure α) (limit : Nat) (r : Running σ) :
    Nat → Running σ → Prop
  /-- The first attempt. -/
  | first (hlimit : 0 < limit) : RetryStarts attempt limit r 0 r
  /-- An attempt after one that failed, if there is to be another. -/
  | again {n : Nat} {before failed after : Running σ} {step : StepFailure}
      (hbefore : RetryStarts attempt limit r n before)
      (hattempt : attempt n before = (.failed step, failed))
      (hafter : afterFailure step failed = (.done (), after)) (hlimit : n + 1 < limit) :
      RetryStarts attempt limit r (n + 1) after

/-- Counts one more look. -/
def Running.ticked (r : Running σ) : Running σ :=
  r.onTask fun task => { task with poll := task.poll.tick }

/-- Among looks that are made from `r`, that of number `n` starts from another state. -/
inductive PollStarts (look : Nat → Act σ StepFailure Value) (limit : Nat) (r : Running σ) :
    Nat → Running σ → Prop
  /-- The first look. -/
  | first (hlimit : 0 < limit) : PollStarts look limit r 0 r.ticked
  /-- A look after one that did not find what is awaited. -/
  | again {n : Nat} {before after : Running σ} {value : Value}
      (hbefore : PollStarts look limit r n before)
      (hlook : look n before = (.done value, after)) (hopen : after.task.poll.complete = false)
      (hlimit : n + 1 < limit) : PollStarts look limit r (n + 1) (waitForPoll after).ticked

theorem RetryStarts.keeps {attempt : Nat → Act σ StepFailure α} (h : ∀ n, (attempt n).Kept)
    {limit n : Nat} {r r' : Running σ} (hstart : RetryStarts attempt limit r n r') :
    r.Keeps r' := by
  induction hstart with
  | first hlimit => exact .refl r
  | again hbefore hattempt hafter hlimit ih =>
    exact (ih.trans ((h _).of_eq hattempt)).trans ((kept_afterFailure _).of_eq hafter)

theorem Running.keeps_ticked (r : Running σ) : r.Keeps r.ticked := r.keeps_withPoll _

theorem PollStarts.keeps {look : Nat → Act σ StepFailure Value} (h : ∀ n, (look n).Kept)
    {limit n : Nat} {r r' : Running σ} (hstart : PollStarts look limit r n r') : r.Keeps r' := by
  induction hstart with
  | first hlimit => exact r.keeps_ticked
  | again hbefore hlook hopen hlimit ih =>
    have hafter := ih.trans ((h _).of_eq hlook)
    exact (hafter.trans (keeps_waitForPoll _)).trans (Running.keeps_ticked _)

/-! ### Moments -/

/-- What is being done. -/
inductive Activity (σ : Type)
  /-- A term, for a kind of task whose parts are followed to a depth if they run themselves. -/
  | term (kind : TaskKind σ) (depth : Nat) (body : Body σ)
  /-- A part of a kind of task. -/
  | part (kind : TaskKind σ) (depth : Nat) (hook : Hook)
  /-- A call of a task on a stack. -/
  | call (kind : TaskKind σ) (stack : StackId)

/-- What the terms of a kind of task are run in if its parts are followed to a depth. -/
def TaskKind.surroundingsTo (kind : TaskKind σ) (settings : EngineSettings) (limit depth : Nat) :
    Surroundings σ :=
  ⟨limit, settings, kind.profile, kind.hookTo settings limit depth⟩

section Reaches

variable (settings : EngineSettings) (limit : Nat)

/-- What is done from `r`, while some calls are open, comes to a moment. -/
inductive Reaches : Activity σ → List OpenCall → Running σ → Moment σ → Prop
  /-- Before a term. -/
  | start : Reaches (.term kind depth body) calls r ⟨calls, r⟩
  /-- After a term, however it ends. -/
  | finish : Reaches (.term kind depth body) calls r
      ⟨calls, (body.run (kind.surroundingsTo settings limit depth) r).2⟩
  /-- In the first of two terms. -/
  | first (h : Reaches (.term kind depth first) calls r m) :
      Reaches (.term kind depth (.andThen first next)) calls r m
  /-- In the second of two terms. -/
  | next (hfirst : first.run (kind.surroundingsTo settings limit depth) r = (.done value, r'))
      (h : Reaches (.term kind depth (next value)) calls r' m) :
      Reaches (.term kind depth (.andThen first next)) calls r m
  /-- In a term whose failure is held up. -/
  | tried (h : Reaches (.term kind depth first) calls r m) :
      Reaches (.term kind depth (.recover first next)) calls r m
  /-- After a term whose failure would have been held up. -/
  | succeeded (hfirst : first.run (kind.surroundingsTo settings limit depth) r = (.done value, r'))
      (h : Reaches (.term kind depth (next (.ok value))) calls r' m) :
      Reaches (.term kind depth (.recover first next)) calls r m
  /-- After a term whose failure is held up. -/
  | failed (hfirst : first.run (kind.surroundingsTo settings limit depth) r = (.failed step, r'))
      (h : Reaches (.term kind depth (next (.error step))) calls r' m) :
      Reaches (.term kind depth (.recover first next)) calls r m
  /-- After a look at what a part works on. -/
  | seen (h : Reaches (.term kind depth (next r)) calls r m) :
      Reaches (.term kind depth (.see next)) calls r m
  /-- After a hierarchy of loggers is opened. -/
  | logging (h : Reaches (.term kind depth (next (r.world.newLogger name size).1)) calls
        { r with world := (r.world.newLogger name size).2 } m) :
      Reaches (.term kind depth (.openLogger name size next)) calls r m
  /-- In an attempt. -/
  | attempt (hrounds : RetryStarts
        (fun n => (attempt n).run (kind.surroundingsTo settings limit depth)) limit r n r')
      (h : Reaches (.term kind depth (attempt n)) calls r' m) :
      Reaches (.term kind depth (.retrying attempt)) calls r m
  /-- In a look. -/
  | look (hrounds : PollStarts
        (fun n => (look n).run (kind.surroundingsTo settings limit depth)) limit r n r')
      (h : Reaches (.term kind depth (look n)) calls r' m) :
      Reaches (.term kind depth (.polling look)) calls r m
  /-- In an attempt of the kind of task. -/
  | ownAttempt (hrounds : RetryStarts
        (fun _ => attemptStep kind.profile (kind.hookTo settings limit depth .tryStep))
        limit r n r')
      (h : Reaches (.part kind depth .tryStep) calls r' m) :
      Reaches (.term kind depth .retryStep) calls r m
  /-- In a look of the kind of task. -/
  | ownLook (hrounds :
        PollStarts (fun _ => kind.hookTo settings limit depth .pollAction) limit r n r')
      (h : Reaches (.part kind depth .pollAction) calls r' m) :
      Reaches (.term kind depth .pollStep) calls r m
  /-- In a task that a part has constructed and calls. -/
  | called (hbuild : builder.build settings profile r.world = (.ok task, world))
      (h : Reaches (.call ⟨profile, part⟩ (stack.getD r.task.stack)) calls ⟨world, task, own⟩ m) :
      Reaches (.term kind depth (.invoke profile part own builder stack next)) calls r m
  /-- After a task was called, or could not be constructed. -/
  | returned (hinvoke : Act.invoke settings profile (TaskKind.hook ⟨profile, part⟩ settings limit)
        own builder stack r = (.done invocation, r'))
      (h : Reaches (.term kind depth (next invocation)) calls r' m) :
      Reaches (.term kind depth (.invoke profile part own builder stack next)) calls r m
  /-- In a part, which may run parts in turn. -/
  | part (h : Reaches (.term kind depth (kind.part hook)) calls r m) :
      Reaches (.part kind (depth + 1) hook) calls r m
  /-- In the hook that refreshes the credentials. -/
  | credentials (horg : (kind.profile.requiresOrg && r.task.org.isNone) = false)
      (h : Reaches (.part kind limit .credentials) (calls ++ [⟨stack, r.task.frame, false⟩]) r m) :
      Reaches (.call kind stack) calls r m
  /-- In the hook that initialises the task. -/
  | init (horg : (kind.profile.requiresOrg && r.task.org.isNone) = false)
      (hcredentials : kind.hook settings limit .credentials r = (.done value, refreshed))
      (h : Reaches (.part kind limit .init) (calls ++ [⟨stack, refreshed.task.frame, false⟩])
        refreshed m) :
      Reaches (.call kind stack) calls r m
  /-- In the body. -/
  | body (hpasses : kind.Passes settings limit r ready)
      (henter : ready.world.directory.enter ready.task.project.repoRoot =
        .ok (former, directory))
      (h : Reaches (.part kind limit .body) (calls ++ [⟨stack, ready.task.frame, true⟩])
        (announce kind.profile ((ready.framed stack).entered former directory).capturing) m) :
      Reaches (.call kind stack) calls r m

end Reaches

/-! ### Properties of all moments -/

/-- A property of what the parts of tasks find, while some calls are open, and one of what calls
start from: parts keep the former, and the stages of a call carry it along. -/
structure Carried (settings : EngineSettings)
    (inPart atCall : List OpenCall → Running σ → Prop) : Prop where
  /-- Steps keep the property. -/
  keeps : ∀ {calls : List OpenCall} {r r' : Running σ}, inPart calls r → r.Keeps r' →
    inPart calls r'
  /-- The hooks of a call have the property. -/
  opened : ∀ {calls : List OpenCall} {r : Running σ} (stack : StackId), atCall calls r →
    inPart (calls ++ [⟨stack, r.task.frame, false⟩]) r
  /-- The stage of the body has the property if the hooks have it. -/
  entered : ∀ {calls : List OpenCall} {r : Running σ} (stack : StackId) (former : Path)
    (directory : WorkingDirectory), inPart (calls ++ [⟨stack, r.task.frame, false⟩]) r →
      inPart (calls ++ [⟨stack, r.task.frame, true⟩])
        ((r.framed stack).entered former directory).capturing
  /-- Calls of constructed tasks can start. -/
  built : ∀ {calls : List OpenCall} {r : Running σ} {builder : Builder} {profile : Profile σ}
    {task : TaskState} {world : World} (own : σ), inPart calls r →
      builder.build settings profile r.world = (.ok task, world) → atCall calls ⟨world, task, own⟩

/-- The property that an activity starts with. -/
def Activity.StartsWith (inPart atCall : List OpenCall → Running σ → Prop) :
    Activity σ → List OpenCall → Running σ → Prop
  | .term _ _ _ | .part _ _ _ => inPart
  | .call _ _ => atCall

section Carried

variable {settings : EngineSettings} {limit : Nat} {kind : TaskKind σ} {activity : Activity σ}
  {calls : List OpenCall} {r ready : Running σ} {m : Moment σ}
  {inPart atCall : List OpenCall → Running σ → Prop}

/-- The property is carried through the hooks of a call. -/
theorem Carried.passed (hcarried : Carried settings inPart atCall)
    (hpasses : kind.Passes settings limit r ready) (stack : StackId) (h : atCall calls r) :
    inPart (calls ++ [⟨stack, ready.task.frame, false⟩]) ready := by
  have hkeeps := hpasses.keeps
  rw [hkeeps.task.frame]
  exact hcarried.keeps (hcarried.opened stack h) hkeeps

theorem kept_runTo (body : Body σ) (kind : TaskKind σ) (settings : EngineSettings)
    (limit depth : Nat) : (body.run (kind.surroundingsTo settings limit depth)).Kept :=
  body.kept_run _ (kind.kept_hookTo settings limit depth)

/-- The property holds after a term if it holds before it. -/
theorem Carried.afterTerm (hcarried : Carried settings inPart atCall) {body : Body σ} {depth : Nat}
    {outcome : Outcome StepFailure Value} {r' : Running σ}
    (hrun : body.run (kind.surroundingsTo settings limit depth) r = (outcome, r'))
    (h : inPart calls r) : inPart calls r' :=
  hcarried.keeps h ((kept_runTo body kind settings limit depth).of_eq hrun)

/-- **A property that is carried along holds at all moments**: by induction on the rules. -/
theorem Reaches.holds (hcarried : Carried settings inPart atCall)
    (h : Reaches settings limit activity calls r m)
    (hstart : activity.StartsWith inPart atCall calls r) : inPart m.calls m.running := by
  induction h with
  | start => exact hstart
  | finish => exact hcarried.keeps hstart (kept_runTo _ _ settings limit _ _)
  | first h ih => exact ih hstart
  | next hfirst h ih => exact ih (hcarried.afterTerm hfirst hstart)
  | tried h ih => exact ih hstart
  | succeeded hfirst h ih => exact ih (hcarried.afterTerm hfirst hstart)
  | failed hfirst h ih => exact ih (hcarried.afterTerm hfirst hstart)
  | seen h ih => exact ih hstart
  | logging h ih => exact ih (hcarried.keeps hstart (Running.keeps_newLogger _ _ _))
  -- a round of a loop starts with what the rounds before it have kept
  | attempt hrounds h ih =>
    exact ih (hcarried.keeps hstart (hrounds.keeps fun n => kept_runTo _ _ settings limit _))
  | look hrounds h ih =>
    exact ih (hcarried.keeps hstart (hrounds.keeps fun n => kept_runTo _ _ settings limit _))
  | ownAttempt hrounds h ih =>
    exact ih (hcarried.keeps hstart
      (hrounds.keeps fun _ => kept_attemptStep _ (TaskKind.kept_hookTo _ settings limit _ _)))
  | ownLook hrounds h ih =>
    exact ih (hcarried.keeps hstart
      (hrounds.keeps fun _ => TaskKind.kept_hookTo _ settings limit _ _))
  -- the called task has open calls of its own only from its first hook on
  | called hbuild h ih => exact ih (hcarried.built _ hstart hbuild)
  | returned hinvoke h ih =>
    have hkeeps :=
      (kept_invoke settings _ (TaskKind.kept_hook _ settings limit) _ _ _).of_eq hinvoke
    exact ih (hcarried.keeps hstart hkeeps)
  | part h ih => exact ih hstart
  -- the hooks run before the frame of their task is pushed, and the body after that
  | credentials horg h ih => exact ih (hcarried.opened _ hstart)
  | init horg hcredentials h ih =>
    have hkeeps := (TaskKind.kept_hook _ settings limit .credentials).of_eq hcredentials
    rw [hkeeps.task.frame] at ih
    exact ih (hcarried.keeps (hcarried.opened _ hstart) hkeeps)
  | body hpasses henter h ih =>
    refine ih (hcarried.keeps ?_ (keeps_announce _ _))
    exact hcarried.entered _ _ _ (hcarried.passed hpasses _ hstart)

end Carried

end TaskEngine
