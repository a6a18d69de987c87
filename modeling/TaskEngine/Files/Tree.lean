import TaskEngine.Files.PathText
import TaskEngine.Text.Utf8

/-!
# File trees

A tree of directories and files without links.  Paths as they are written are walked
name by name from the root or from the current directory.

## Main definitions

* `Path`, `pathText` — the names from the root, and how they are written.
* `FileTree` — the directories and files.
* `FileTree.resolve` — what a written path names.
* `FileTree.trace` — the same, with a look at each place on the way.
* `OsError` — why a path names nothing.
-/

namespace TaskEngine

/-- A place in a tree: the names from the root. -/
abbrev Path := List String

/-- A place as it is written. -/
def pathText (path : Path) : String := "/" ++ "/".intercalate path

/-- Why a written path names nothing. -/
inductive OsError
  /-- There is nothing of the name. -/
  | notFound
  /-- Something on the way is no directory. -/
  | notDirectory
  /-- The path or a name in it is too long. -/
  | nameTooLong
  /-- The path has a character that no name can have. -/
  | unexpectedNul
  deriving DecidableEq

/-- The message of an error. -/
def OsError.message : OsError → String
  | .notFound => "No such file or directory (os error 2)"
  | .notDirectory => "Not a directory (os error 20)"
  | .nameTooLong => "File name too long (os error 36)"
  | .unexpectedNul => "file name contained an unexpected NUL byte"

/-- The directories and files; the root is a directory in any case. -/
structure FileTree where
  /-- The directories. -/
  directories : List Path
  /-- The files with their contents. -/
  files : List (Path × Bytes)

/-- The names of a written path behind the start of a name, which is given in reverse. -/
def namesFrom : List Char → List Char → List String
  | [], [] => ["."]
  | name, [] => [String.ofList name.reverse]
  | [], '/' :: rest => namesFrom [] rest
  | name, '/' :: rest => String.ofList name.reverse :: namesFrom [] rest
  | name, c :: rest => namesFrom (c :: name) rest

/-- The names of a written path.  A slash at the end asks for a directory, as a dot does. -/
def pathNames (text : String) : List String := namesFrom [] text.toList

/-- The longest name, in bytes. -/
def maxNameLength : Nat := 255

/-- The longest path that can be walked, in bytes. -/
def maxPathLength : Nat := 4095

/-- The length of a place as it is written, in bytes. -/
def Path.textLength (path : Path) : Nat := (encodeText (pathText path)).length

/-- Whether a name is that of a place below; dots are not. -/
def leadsBelow (name : String) : Bool := name != "." && name != ".."

/-- Whether the names that follow ask a place to be a directory without naming anything in it:
they go up from there, or end in a dot. -/
def asksDirectory : List String → Bool
  | [] => false
  | ["."] => true
  | "." :: names => asksDirectory names
  | name :: _ => name == ".."

namespace FileTree

/-- The tree of the root alone. -/
def empty : FileTree := ⟨[], []⟩

/-- Whether there is a directory at a place. -/
def isDirectory (tree : FileTree) (path : Path) : Bool :=
  path.isEmpty || tree.directories.contains path

/-- The content of the file at a place. -/
def file? (tree : FileTree) (path : Path) : Option Bytes := tree.files.lookup path

/-- Whether there is anything at a place. -/
def contains (tree : FileTree) (path : Path) : Bool :=
  tree.isDirectory path || (tree.file? path).isSome

/-- Makes a directory with all directories above it. -/
def makeDirectory (tree : FileTree) (path : Path) : FileTree :=
  { tree with directories := tree.directories ++
      ((List.range path.length).map fun n => path.take (n + 1)).filter (!tree.isDirectory ·) }

/-- Puts a file at a place, with all directories above it. -/
def makeFile (tree : FileTree) (path : Path) (content : Bytes) : FileTree :=
  let tree := tree.makeDirectory path.dropLast
  { tree with files := (path, content) :: tree.files }

/-- Takes away a directory with everything below it. -/
def removeBelow (tree : FileTree) (path : Path) : FileTree :=
  ⟨tree.directories.filter (!path.isPrefixOf ·), tree.files.filter (!path.isPrefixOf ·.1)⟩

/-- Walks on by one name.  From a directory that is gone the way up is still open. -/
def walk (tree : FileTree) (path : Path) (name : String) : Except OsError Path :=
  if (tree.file? path).isSome then .error .notDirectory
  else if name = "." then .ok path
  else if name = ".." then .ok path.dropLast
  else if maxNameLength < (encodeText name).length then .error .nameTooLong
  else if tree.isDirectory path && tree.contains (path ++ [name]) then .ok (path ++ [name])
  else .error .notFound

/-- What a path names when it is written in a directory. -/
def resolve (tree : FileTree) (current : Path) (text : String) : Except OsError Path :=
  if text.toList.contains '\x00' then .error .unexpectedNul
  else if text = "" then .error .notFound
  else if maxPathLength < (encodeText text).length then .error .nameTooLong
  else (pathNames text).foldlM tree.walk (if isAbsolutePath text then [] else current)

/-- Walks by names one after another and looks at each place below by its text, with a slash behind
it where a directory is asked for.  However short the names are, that text may be too long. -/
def trace (tree : FileTree) (path : Path) : List String → Except OsError Path
  | [] => .ok path
  | name :: names =>
    match tree.walk path name with
    | .error reason => .error reason
    | .ok place =>
      if leadsBelow name &&
          decide (maxPathLength < place.textLength + (asksDirectory names).toNat) then
        .error .nameTooLong
      else tree.trace place names

/-- The directory that a path names when it is written in a directory. -/
def resolveDirectory (tree : FileTree) (current : Path) (text : String) : Except OsError Path := do
  let path ← tree.resolve current text
  if (tree.file? path).isSome then .error .notDirectory else .ok path

end FileTree

end TaskEngine
