import TaskEngine.Document

/-!
# Where a project comes from

A project is a directory or a commit of a hosted repository.  The frozen form of a
source is enough to fetch the same project again.

## Main definitions

* `ProjectSource` — the kinds of sources.
* `ProjectSource.frozen` — the record kept with a frozen step.
-/

namespace TaskEngine

/-- Where a project comes from. -/
inductive ProjectSource
  /-- A directory, if it is known. -/
  | directory (path : Option String)
  /-- A commit of a hosted repository. -/
  | hosted (url commit : String) (description : Option String)
  deriving DecidableEq

namespace ProjectSource

instance : Inhabited ProjectSource := ⟨.directory none⟩

/-- The record kept with a frozen step; a commit without description describes itself. -/
def frozen : ProjectSource → Value
  | .directory path => .object [("path", .ofText? path)]
  | .hosted url commit description =>
    .object [("commit", .string commit), ("description", .string (description.getD commit)),
      ("github", .string url)]

/-- The fields of a source. -/
def toDocument : ProjectSource → Value
  | .directory path => .object [("type", .string "local"), ("path", .ofText? path)]
  | .hosted url commit description =>
    .object [("type", .string "github"), ("url", .string url), ("commit", .string commit),
      ("description", .ofText? description)]

/-- The readers of the kinds of sources, by the names that documents give them. -/
def kinds : List (String × RecordReader Value ProjectSource) :=
  [("local", directory <$> .optional "path" DocumentNode.text),
   ("github", hosted <$> .required "url" DocumentNode.text <*>
      .required "commit" DocumentNode.text <*> .optional "description" DocumentNode.text)]

/-- Reads a source. -/
def read {D : Type} [DocumentNode D] (node : D) : Except Fault ProjectSource :=
  readTagged "type" kinds node

end ProjectSource

end TaskEngine
