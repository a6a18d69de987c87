import TaskEngine.Proofs.Calls.Moments

/-!
# The frames at every moment

At every moment of a call, a stack holds the frames that it held before, and then those of the
open calls on that stack whose body has been entered, the outermost first.  So the innermost frame
is that of the task that runs if its body does, while its hooks find the stack without it.  Calls
on one stack do not affect another.

## Main definitions

* `framesOn` — the frames of the open calls on a stack whose body has been entered.
* `InPlace` — the frames of all stacks are those of the open calls on top of given ones.
* `Apart` — the frame of a task is none of the others.
* `Running.Numbered` — no stack has a frame with the number of the task, or one yet to be given.

## Main results

* `carried_inPlace`, `carried_apart` — both properties are carried along by a call.
* `numbered_of_build` — a constructed task has a number of its own.
* `reaches_frames` — **the frames at every moment of a call.**
-/

namespace TaskEngine

/-- The body of the call has been entered, on the given stack. -/
def OpenCall.isOn (call : OpenCall) (id : StackId) : Bool := call.inBody && call.stack == id

/-- The frames of the calls on a stack whose body has been entered, the outermost first. -/
def framesOn (id : StackId) (calls : List OpenCall) : List Frame :=
  (calls.filter (·.isOn id)).map (·.frame)

theorem framesOn_append (id : StackId) (calls : List OpenCall) (call : OpenCall) :
    framesOn id (calls ++ [call]) =
      framesOn id calls ++ if call.isOn id then [call.frame] else [] := by
  rw [framesOn, List.filter_append, List.map_append, framesOn, List.filter_singleton]
  cases call.isOn id
  · rfl
  · rfl

/-- A call whose hooks run has no frame on a stack. -/
theorem framesOn_append_hooks (id : StackId) (calls : List OpenCall) {call : OpenCall}
    (h : call.inBody = false) : framesOn id (calls ++ [call]) = framesOn id calls := by
  rw [framesOn_append, OpenCall.isOn, h, Bool.false_and, if_neg Bool.false_ne_true,
    List.append_nil]

theorem length_framesOn (id : StackId) (calls : List OpenCall) :
    (framesOn id calls).length = calls.countP (·.isOn id) := by
  rw [framesOn, List.length_map, List.countP_eq_length_filter]

variable {σ : Type} {base : StackId → List Frame} {calls : List OpenCall} {r : Running σ}

/-! ### Frames in their places -/

/-- The frames of all stacks are given ones and those of the open calls; the last of these is that
of the task, which has been told its stack if its body runs. -/
structure InPlace (base : StackId → List Frame) (calls : List OpenCall) (r : Running σ) : Prop where
  /-- The frames on every stack. -/
  frames : ∀ id, r.world.frames id = base id ++ framesOn id calls
  /-- The call of the task itself. -/
  own : ∃ outer own, calls = outer ++ [own] ∧ own.frame = r.task.frame ∧
    (own.inBody = true → own.stack = r.task.stack)

/-- Before a call, the frames are in their places. -/
def InPlaceBefore (base : StackId → List Frame) (calls : List OpenCall) (r : Running σ) : Prop :=
  ∀ id, r.world.frames id = base id ++ framesOn id calls

theorem InPlace.keeps {r' : Running σ} (h : InPlace base calls r) (hkeeps : r.Keeps r') :
    InPlace base calls r' := by
  obtain ⟨outer, own, hcalls, hframe, hstack⟩ := h.own
  refine ⟨fun id => (hkeeps.world.frames id).trans (h.frames id), outer, own, hcalls, ?_, ?_⟩
  · rw [hframe, hkeeps.task.frame]
  · rw [hkeeps.task.stack]
    exact hstack

/-- When the body is entered, the frame of the task is put where it belongs. -/
theorem InPlace.entered (stack : StackId) (former : Path) (directory : WorkingDirectory)
    (h : InPlace base (calls ++ [⟨stack, r.task.frame, false⟩]) r) :
    InPlace base (calls ++ [⟨stack, r.task.frame, true⟩])
      ((r.framed stack).entered former directory).capturing := by
  refine ⟨fun id => ?_, calls, _, rfl, rfl, fun _ => rfl⟩
  have hpushed : ((r.framed stack).entered former directory).capturing.world.frames id =
      (r.world.pushFrame stack r.task.frame).frames id := rfl
  -- the pushed frame is the only one that the change from hooks to body adds
  rw [hpushed, World.frames_pushFrame, h.frames, framesOn_append_hooks _ _ rfl, framesOn_append,
    OpenCall.isOn, Bool.true_and, ← List.append_assoc]
  by_cases hid : id = stack
  · rw [if_pos hid, if_pos (beq_iff_eq.2 hid.symm)]
  · rw [if_neg hid, if_neg fun h => hid (beq_iff_eq.1 h).symm, List.append_nil]

/-- A call carries the frames in their places along. -/
theorem carried_inPlace (settings : EngineSettings) (base : StackId → List Frame) :
    Carried settings (InPlace base : List OpenCall → Running σ → Prop) (InPlaceBefore base) where
  keeps h hkeeps := h.keeps hkeeps
  opened stack h := by
    refine ⟨fun id => ?_, _, _, rfl, rfl, fun h => absurd h Bool.false_ne_true⟩
    rw [framesOn_append_hooks _ _ rfl]
    exact h id
  entered stack former directory h := h.entered stack former directory
  built {calls r builder profile task world} own h hbuild := by
    have hkeeps := World.keeps_build builder settings profile r.world
    rw [hbuild] at hkeeps
    exact fun id => (hkeeps.frames id).trans (h.frames id)

/-! ### Frames of their own -/

/-- A frame that is there before, or that of an open call. -/
def Known (base : StackId → List Frame) (calls : List OpenCall) (frame : Frame) : Prop :=
  (∃ id, frame ∈ base id) ∨ ∃ call ∈ calls, call.frame = frame

theorem known_append {outer : List OpenCall} {own : OpenCall} {frame : Frame} :
    Known base (outer ++ [own]) frame ↔ Known base outer frame ∨ own.frame = frame := by
  simp only [Known, List.mem_append, List.mem_singleton, or_and_right, exists_or, exists_eq_left,
    or_assoc]

/-- A frame on a stack is known if the frames are in their places. -/
theorem known_of_mem_frames {frame : Frame} {id : StackId}
    (h : frame ∈ base id ++ framesOn id calls) : Known base calls frame := by
  rcases List.mem_append.1 h with hbase | hcalls
  · exact Or.inl ⟨id, hbase⟩
  · obtain ⟨call, hmem, hframe⟩ := List.mem_map.1 hcalls
    exact Or.inr ⟨call, List.mem_of_mem_filter hmem, hframe⟩

/-- The number of a task has been given to it alone: no known frame has it, or one that is yet to
be given. -/
structure Apart (base : StackId → List Frame) (calls : List OpenCall) (r : Running σ) : Prop where
  /-- The number of the task. -/
  given : r.task.id < r.world.nextTaskId
  /-- The numbers of the known frames. -/
  others : ∀ frame, Known base calls frame →
    frame.taskId < r.world.nextTaskId ∧ frame.taskId ≠ r.task.id

/-- The last of the open calls is that of the task, and its number has been given to it alone. -/
def ApartInside (base : StackId → List Frame) (calls : List OpenCall) (r : Running σ) : Prop :=
  ∃ outer own, calls = outer ++ [own] ∧ own.frame = r.task.frame ∧ Apart base outer r

/-- No stack has a frame with the number of the task, or one that is yet to be given. -/
def Running.Numbered (r : Running σ) : Prop := Apart r.world.frames [] r

theorem Apart.keeps {r' : Running σ} (h : Apart base calls r) (hkeeps : r.Keeps r') :
    Apart base calls r' := by
  have hid : r'.task.id = r.task.id := congrArg Frame.taskId hkeeps.task.frame
  have hnext := hkeeps.world.nextTaskId
  refine ⟨?_, fun frame hknown => ?_⟩
  · rw [hid]
    exact Nat.lt_of_lt_of_le h.given hnext
  · rw [hid]
    exact ⟨Nat.lt_of_lt_of_le (h.others frame hknown).1 hnext, (h.others frame hknown).2⟩

theorem nextTaskId_logAll (world : World) (logger : Logger) (level : LogLevel)
    (messages : List String) :
    (Builder.logAll world logger level messages).nextTaskId = world.nextTaskId := by
  induction messages generalizing world with
  | nil => rfl
  | cons message messages ih => exact ih (world.log logger level message)

theorem nextTaskId_taskLogger (builder : Builder) (className : String) (world : World) :
    (builder.taskLogger className world).2.nextTaskId = world.nextTaskId := by
  rw [Builder.taskLogger]
  split
  · rfl
  · rfl
  · rfl

/-- A constructed task gets the next number, and the number after it is the next one then. -/
theorem id_of_build {builder : Builder} {settings : EngineSettings} {profile : Profile σ}
    {world world' : World} {task : TaskState}
    (h : builder.build settings profile world = (.ok task, world')) :
    task.id = world.nextTaskId ∧ world'.nextTaskId = world.nextTaskId + 1 := by
  rw [Builder.build] at h
  dsimp only at h
  split at h
  · simp at h
  · obtain ⟨htask, hworld⟩ := Prod.mk.inj h
    rw [← Except.ok.inj htask, ← hworld]
    dsimp only
    split
    · rw [nextTaskId_logAll, nextTaskId_logAll, nextTaskId_taskLogger]
      exact ⟨rfl, rfl⟩
    · rw [nextTaskId_logAll, nextTaskId_taskLogger]
      exact ⟨rfl, rfl⟩

/-- A constructed task is apart from those that are known. -/
theorem Apart.of_build {builder : Builder} {settings : EngineSettings} {profile : Profile σ}
    {world world' : World} {task : TaskState} (own : σ)
    (hknown : ∀ frame, Known base calls frame → frame.taskId < world.nextTaskId)
    (h : builder.build settings profile world = (.ok task, world')) :
    Apart base calls ⟨world', task, own⟩ := by
  obtain ⟨hid, hnext⟩ := id_of_build h
  refine ⟨?_, fun frame hframe => ?_⟩
  · rw [hid, hnext]
    exact Nat.lt_succ_self _
  · have hlt := hknown frame hframe
    rw [hid, hnext]
    exact ⟨Nat.lt_succ_of_lt hlt, Nat.ne_of_lt hlt⟩

/-- A task is numbered when it is constructed, if the numbers on the stacks were given before. -/
theorem numbered_of_build {builder : Builder} {settings : EngineSettings} {profile : Profile σ}
    {world world' : World} {task : TaskState} (own : σ)
    (hframes : ∀ id, ∀ frame ∈ world.frames id, frame.taskId < world.nextTaskId)
    (h : builder.build settings profile world = (.ok task, world')) :
    Running.Numbered ⟨world', task, own⟩ := by
  refine Apart.of_build own (fun frame hknown => ?_) h
  obtain ⟨id, hmem⟩ | ⟨call, hmem, -⟩ := hknown
  · have hkeeps := World.keeps_build builder settings profile world
    rw [h] at hkeeps
    exact hframes id frame (hkeeps.frames id ▸ hmem)
  · exact absurd hmem List.not_mem_nil

/-- A call carries along that tasks are apart. -/
theorem carried_apart (settings : EngineSettings) (base : StackId → List Frame) :
    Carried settings (ApartInside base : List OpenCall → Running σ → Prop) (Apart base) where
  keeps := by
    rintro calls r r' ⟨outer, own, hcalls, hframe, hapart⟩ hkeeps
    exact ⟨outer, own, hcalls, hframe.trans hkeeps.task.frame.symm, hapart.keeps hkeeps⟩
  opened {calls r} stack h := ⟨calls, _, rfl, rfl, h⟩
  entered {calls r} stack former directory h := by
    obtain ⟨outer, own, hcalls, hframe, hapart⟩ := h
    -- a number is no part of what the stage of the body changes
    obtain ⟨houter, -⟩ := List.append_inj' hcalls rfl
    exact ⟨calls, _, rfl, rfl, hapart.given, houter ▸ hapart.others⟩
  built {calls r builder profile task world} own h hbuild := by
    obtain ⟨outer, last, hcalls, hframe, hapart⟩ := h
    refine Apart.of_build own (fun frame hknown => ?_) hbuild
    rw [hcalls] at hknown
    rcases known_append.1 hknown with hknown | rfl
    · exact (hapart.others frame hknown).1
    · rw [hframe]
      exact hapart.given

/-! ### The frames at every moment -/

/-- The frame of a task whose hooks run is on no stack. -/
theorem ApartInside.not_mem {outer : List OpenCall} {own : OpenCall}
    (h : ApartInside base (outer ++ [own]) r) (hhooks : own.inBody = false) (id : StackId) :
    own.frame ∉ base id ++ framesOn id (outer ++ [own]) := by
  obtain ⟨outer', own', hcalls, hframe, hapart⟩ := h
  obtain ⟨rfl, hown⟩ := List.append_inj' hcalls rfl
  rw [framesOn_append_hooks id outer hhooks, List.singleton_inj.1 hown, hframe]
  exact fun hmem => (hapart.others _ (known_of_mem_frames hmem)).2 rfl

/-- **The frames at every moment of a call.**  Every stack holds the frames that it held before, and
then those of the open calls on it whose body has been entered, the outermost first.  If the body
of a task runs, its own frame is on top of its stack, which is deeper than before by the number of
such calls.  While its hooks run, its frame is not there yet, nor is it anywhere else if its number
has been given to it alone. -/
theorem reaches_frames {settings : EngineSettings} {limit : Nat} {kind : TaskKind σ}
    {stack : StackId} {m : Moment σ} (h : Reaches settings limit (.call kind stack) [] r m) :
    ∃ outer own, m.calls = outer ++ [own] ∧ own.frame = m.running.task.frame ∧
      (∀ id, m.running.world.frames id = r.world.frames id ++ framesOn id m.calls) ∧
      (own.inBody = true → own.stack = m.running.task.stack ∧
        let found := m.running.world.taskStacks.get own.stack
        found.top? = some m.running.task.frame ∧
          found.depth = (r.world.frames own.stack).length + m.calls.countP (·.isOn own.stack)) ∧
      (own.inBody = false →
        (∀ id, m.running.world.frames id = r.world.frames id ++ framesOn id outer) ∧
          (r.Numbered → ∀ id, own.frame ∉ m.running.world.frames id)) := by
  have hplaces : InPlace r.world.frames m.calls m.running :=
    h.holds (carried_inPlace settings r.world.frames) fun id => (List.append_nil _).symm
  have hapart : r.Numbered → ApartInside r.world.frames m.calls m.running :=
    fun hnumbered => h.holds (carried_apart settings r.world.frames) hnumbered
  obtain ⟨outer, own, hcalls, hframe, hstack⟩ := hplaces.own
  refine ⟨outer, own, hcalls, hframe, hplaces.frames, fun hbody => ⟨hstack hbody, ?_, ?_⟩,
    fun hhooks => ⟨fun id => ?_, fun hnumbered id => ?_⟩⟩
  · have hframes := hplaces.frames own.stack
    -- the last open call is on that stack, so its frame is the last one there
    have hon : own.isOn own.stack = true := by
      rw [OpenCall.isOn, hbody, Bool.true_and, beq_self_eq_true]
    rw [hcalls, framesOn_append, if_pos hon, ← List.append_assoc] at hframes
    rw [TaskStack.top?, ← hframe]
    exact (congrArg List.getLast? hframes).trans List.getLast?_concat
  · rw [← length_framesOn, ← List.length_append]
    exact congrArg List.length (hplaces.frames own.stack)
  · rw [hplaces.frames id, hcalls, framesOn_append_hooks id outer hhooks]
  · rw [hplaces.frames id, hcalls]
    exact (hcalls ▸ hapart hnumbered).not_mem hhooks id

/-- Calls a task that panics, and then another. -/
def TaskKind.nesting : TaskKind Unit where
  profile := .named "Outer"
  part
    | .body =>
      .invoke (.named "Broken") (fun _ => .panic "broken") () (.start .empty .empty) none fun _ =>
        .invoke (.named "Inner") (fun _ => .done .null) () (.start .empty .empty) none fun _ =>
          .done .null
    | _ => .done .null

theorem reaches_frames_nesting :
    ∃ m : Moment Unit, Reaches .off 1 (.call .nesting 0) [] (.atHome "Outer") m ∧
      m.running.world.frames 0 = [⟨1, "Outer", none, none, defaultLoggerName⟩,
        ⟨3, "Inner", none, none, defaultLoggerName⟩] := by
  have houter : TaskKind.nesting.Passes .off 1 (.atHome "Outer") (.atHome "Outer") :=
    ⟨rfl, _, _, _, rfl, rfl⟩
  have hinner : Reaches .off 1 (.call .nesting 0) [] (.atHome "Outer") _ :=
    .body houter rfl (.part (.returned rfl (.called rfl
      (.body ⟨rfl, _, _, _, rfl, rfl⟩ rfl (.part .start)))))
  obtain ⟨outer, own, hcalls, hframe, hframes, -⟩ := reaches_frames hinner
  exact ⟨_, hinner, (hframes 0).trans (by decide)⟩

end TaskEngine
