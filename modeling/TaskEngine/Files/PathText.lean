import TaskEngine.Environment

/-!
# Paths as they are written

## Main definitions

* `isAbsolutePath` — whether a path starts at the root.
* `joinPath` — a path taken from a directory.
* `expandTilde` — a path with its tilde replaced by the home directory.
* `resolveAgainst` — a configured path, taken from the directory of its document.
-/

namespace TaskEngine

/-- Whether a path starts at the root. -/
def isAbsolutePath (path : String) : Bool := path.toList.head? == some '/'

/-- A path taken from a directory: an absolute path stands for itself, any other is appended,
with a slash between unless one is there or the directory is empty. -/
def joinPath (directory path : String) : String :=
  if isAbsolutePath path then path
  else match directory.toList.getLast? with
    | none => path
    | some '/' => directory ++ path
    | some _ => directory ++ "/" ++ path

/-- The trimmed path with a tilde at its front replaced by the home directory. -/
def expandTilde (home path : String) : String :=
  let trimmed := trimSpace path
  match trimmed.toList with
  | ['~'] => home
  | '~' :: '/' :: rest => joinPath home (String.ofList rest)
  | '~' :: '\\' :: rest => joinPath home (String.ofList rest)
  | _ => trimmed

/-- A configured path: absolute after the tilde is replaced, or else taken from a directory. -/
def resolveAgainst (home base configured : String) : String :=
  joinPath base (expandTilde home configured)

end TaskEngine
