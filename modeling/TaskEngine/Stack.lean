/-!
# Stacks of running tasks

A stack holds a frame for every task whose body is running, the outermost first.

## Main definitions

* `Frame` — what a frame says about its task.
* `TaskStack` — the frames.
* `TaskStack.push`, `TaskStack.pop`, `TaskStack.top?`, `TaskStack.depth`.
* `StackStore` — the stacks by number; the first is the default one.
-/

namespace TaskEngine

/-- What a stack says about a running task. -/
structure Frame where
  /-- The number of the task. -/
  taskId : Nat
  /-- The name of its kind. -/
  className : String
  /-- Its name, if it has one. -/
  name : Option String
  /-- The number of its step, if it has one. -/
  stepNum : Option String
  /-- The name of its logger. -/
  logger : String
  deriving DecidableEq

/-- The frames of running tasks, the outermost first. -/
structure TaskStack where
  /-- The frames. -/
  frames : List Frame
  deriving DecidableEq

namespace TaskStack

/-- The stack without frames. -/
def empty : TaskStack := ⟨[]⟩

instance : Inhabited TaskStack := ⟨empty⟩

/-- Puts a frame on the stack. -/
def push (stack : TaskStack) (frame : Frame) : TaskStack := ⟨stack.frames ++ [frame]⟩

/-- Takes the innermost frame off the stack. -/
def pop (stack : TaskStack) : TaskStack := ⟨stack.frames.dropLast⟩

/-- The innermost frame. -/
def top? (stack : TaskStack) : Option Frame := stack.frames.getLast?

/-- The number of frames. -/
def depth (stack : TaskStack) : Nat := stack.frames.length

@[simp] theorem pop_push (stack : TaskStack) (frame : Frame) : (stack.push frame).pop = stack := by
  simp [push, pop]

@[simp] theorem top?_push (stack : TaskStack) (frame : Frame) :
    (stack.push frame).top? = some frame := by
  simp [push, top?]

@[simp] theorem depth_push (stack : TaskStack) (frame : Frame) :
    (stack.push frame).depth = stack.depth + 1 := by
  simp [push, depth]

end TaskStack

/-- The number of a stack. -/
abbrev StackId := Nat

/-- The stacks by number. -/
structure StackStore where
  /-- The stack of every number; all but finitely many were never used and are empty. -/
  byNumber : List TaskStack

namespace StackStore

/-- The number of the default stack. -/
def default : StackId := 0

/-- No stack has been used. -/
def empty : StackStore := ⟨[]⟩

/-- The stack of a number. -/
def get (store : StackStore) (id : StackId) : TaskStack := store.byNumber.getD id .empty

/-- Puts a stack in the place of a number. -/
def setAt : List TaskStack → StackId → TaskStack → List TaskStack
  | [], 0, stack => [stack]
  | [], id + 1, stack => .empty :: setAt [] id stack
  | _ :: others, 0, stack => stack :: others
  | first :: others, id + 1, stack => first :: setAt others id stack

/-- Puts a stack in the place of a number. -/
def set (store : StackStore) (id : StackId) (stack : TaskStack) : StackStore :=
  ⟨setAt store.byNumber id stack⟩

/-- Changes the stack of a number. -/
def modify (store : StackStore) (id : StackId) (change : TaskStack → TaskStack) : StackStore :=
  store.set id (change (store.get id))

theorem getD_setAt (known : List TaskStack) (id other : StackId) (stack : TaskStack) :
    (setAt known id stack).getD other .empty =
      if other = id then stack else known.getD other .empty := by
  induction id generalizing known other with
  | zero =>
    cases known <;> cases other <;> simp [setAt]
  | succ id ih =>
    cases known with
    | nil =>
      cases other with
      | zero => simp [setAt]
      | succ other => simpa [setAt] using ih [] other
    | cons first others =>
      cases other with
      | zero => simp [setAt]
      | succ other => simpa [setAt] using ih others other

/-- Setting one stack leaves the others alone. -/
theorem get_set (store : StackStore) (id other : StackId) (stack : TaskStack) :
    (store.set id stack).get other = if other = id then stack else store.get other :=
  getD_setAt store.byNumber id other stack

end StackStore

end TaskEngine
