import TaskEngine.Files.Tree

/-!
# The working directory

A guard remembers the directory that is current when it is entered.  When it is left,
the process goes back there, wherever it has gone in between.

## Main definitions

* `WorkingDirectory` — a tree and the current directory in it, which may be gone.
* `WorkingDirectory.change` — goes to another directory.
* `WorkingDirectory.locate` — where from the root a path leads.
* `WorkingDirectory.enter`, `WorkingDirectory.leave` — the two ends of a guard.
-/

namespace TaskEngine

/-- A tree and the current directory in it. -/
structure WorkingDirectory where
  /-- The tree. -/
  tree : FileTree
  /-- The current directory. -/
  current : Path

namespace WorkingDirectory

/-- The current directory, unless it is gone. -/
def here? (directory : WorkingDirectory) : Option Path :=
  if directory.tree.isDirectory directory.current then some directory.current else none

/-- The current directory as it is written, unless it is gone. -/
def text? (directory : WorkingDirectory) : Option String := directory.here?.map pathText

/-- Goes to the directory that a path names. -/
def change (directory : WorkingDirectory) (path : String) : Except OsError WorkingDirectory :=
  (directory.tree.resolveDirectory directory.current path).map ({ directory with current := · })

/-- Where a path starts: at the root, or else at the current directory unless it is gone. -/
def start? (directory : WorkingDirectory) (path : String) : Option Path :=
  if isAbsolutePath path then some [] else directory.here?

/-- Where from the root a path leads.  All places on the way are looked at from the root. -/
def locate (directory : WorkingDirectory) (path : String) : Except OsError Path :=
  if path.toList.contains '\x00' then .error .unexpectedNul
  else if path = "" then .error .notFound
  else match directory.start? path with
    | none => .error .notFound
    | some start => directory.tree.trace start (pathNames path)

/-- The path of a directory that could not be entered, and why. -/
structure EnterError where
  /-- The path. -/
  path : String
  /-- The reason. -/
  reason : OsError
  deriving DecidableEq

/-- Enters a guard: remembers the current directory, and goes to another if one is given. -/
def enter (directory : WorkingDirectory) (target : Option String) :
    Except EnterError (Path × WorkingDirectory) :=
  match directory.here? with
  | none => .error ⟨".", .notFound⟩
  | some former => match target with
    | none => .ok (former, directory)
    | some path => match directory.change path with
      | .ok changed => .ok (former, changed)
      | .error reason => .error ⟨path, reason⟩

/-- Leaves a guard: goes back to the directory it remembers, if that is still possible. -/
def leave (directory : WorkingDirectory) (former : Path) : WorkingDirectory :=
  if directory.here? = some former then directory
  else match directory.change (pathText former) with
    | .ok changed => changed
    | .error _ => directory

/-- Takes away the directory that a path names, with everything below it; tells whether there
was one. -/
def remove (directory : WorkingDirectory) (path : String) : Bool × WorkingDirectory :=
  match directory.tree.resolveDirectory directory.current path with
  | .ok place =>
    if directory.tree.isDirectory place then
      (true, { directory with tree := directory.tree.removeBelow place })
    else (false, directory)
  | .error _ => (false, directory)

end WorkingDirectory

end TaskEngine
