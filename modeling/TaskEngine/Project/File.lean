import TaskEngine.Files.WorkingDirectory
import TaskEngine.Project.Config
import TaskEngine.Yaml.Reader

/-!
# Project files

A project file is a YAML document.  Paths in it are taken from the directory of the
file, which is also the directory of the project unless the file names another.

## Main definitions

* `FileError` — why a project file cannot be loaded.
* `WorkingDirectory.readFile` — the text of a file.
* `Project.settle` — a project as it is read, with the directory of its file.
* `Project.load` — the project of a file.
-/

namespace TaskEngine

/-- Why a project file cannot be loaded. -/
inductive FileError
  /-- The file cannot be read. -/
  | unreadable (path : String)
  /-- The file does not describe a project. -/
  | malformed (path : String)
  /-- The place of the file cannot be told. -/
  | unresolvable (path : String)
  deriving DecidableEq

/-- The message of an error. -/
def FileError.message : FileError → String
  | .unreadable path => "Failed to read project file: " ++ path
  | .malformed path => "Failed to parse project file: " ++ path
  | .unresolvable path => "Failed to resolve project file: " ++ path

/-- The text of the file that a path names. -/
def WorkingDirectory.readFile (directory : WorkingDirectory) (path : String) : Option String :=
  match directory.tree.resolve directory.current path with
  | .error _ => none
  | .ok place => (directory.tree.file? place).bind decode?

namespace Project

/-- A project as it is read, with the directory of its file and the keychain of an environment.
Its root is what the file says, or else the directory; so is the directory it comes from. -/
def settle (environment : Environment) (directory : String) (project : Project) : Project :=
  { project with
    repoRoot := some (match project.repoRoot with
      | some configured => resolveAgainst environment.home directory configured
      | none => directory)
    source := match project.source with
      | .directory none => .directory (some directory)
      | source => source
    keychain := some (SecretsBackend.ofEnvironment environment).keychain }

/-- The project of a file.  Only when the file is read, its own directory is asked for. -/
def load (environment : Environment) (directory : WorkingDirectory) (path : String) :
    Except FileError Project :=
  match directory.readFile path with
  | none => .error (.unreadable path)
  | some text =>
    match Yaml.read Project.reader.readOpen text with
    | .error _ => .error (.malformed path)
    | .ok project =>
      match directory.locate path with
      | .error _ => .error (.unresolvable path)
      | .ok place => .ok (project.settle environment (pathText place.dropLast))

end Project

end TaskEngine
