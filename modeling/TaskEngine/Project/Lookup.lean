import TaskEngine.Json.Printer
import TaskEngine.Project.Config

/-!
# Attributes of a project

Options refer to attributes of the project by name.  The declared fields of the
repository have fixed names; every part of the project's document has the name that
its keys make when they are joined by two underscores.

## Main definitions

* `Value.attributeText` — the text of an attribute.
* `Value.parts` — the parts of a value with their names, inner ones first.
* `Lookup`, `Lookup.ofProject` — the attributes of a project.
-/

namespace TaskEngine

/-- What stands in place of an attribute that is not defined. -/
def missingAttribute : String := "None"

namespace Value

/-- The text of an attribute with a value. -/
def attributeText : Value → String
  | .null => missingAttribute
  | value => value.display

mutual

/-- The parts of a value of a given name: what is inside an object comes before it. -/
def parts (name : String) : Value → List (String × Value)
  | .object fields => fieldParts name fields ++ [(name, .object fields)]
  | value => [(name, value)]

/-- The parts of the fields of an object of a given name. -/
def fieldParts (name : String) : List (String × Value) → List (String × Value)
  | [] => []
  | (key, value) :: fields => parts (name ++ "__" ++ key) value ++ fieldParts name fields

end

end Value

/-- The fields of a project that have attributes of fixed names. -/
def Project.declaredAttributes (project : Project) : List (String × Option String) :=
  [("repo_root", project.repoRoot), ("repo_name", project.repo.name),
    ("repo_owner", project.repo.owner), ("repo_url", project.repo.url),
    ("repo_branch", project.repo.branch), ("repo_commit", project.repo.commit)]

/-- The parts of the document of a project. -/
def Project.documentParts (project : Project) : List (String × Value) :=
  match project.document with
  | .object fields => fields.flatMap fun (key, value) => value.parts key
  | _ => []

/-- The attributes of a project. -/
structure Lookup where
  /-- The texts of the attributes. -/
  texts : OrderedMap String

namespace Lookup

/-- The attributes of a project; of several of one name the first counts. -/
def ofProject (project : Project) : Lookup :=
  let declared := project.declaredAttributes.filterMap fun (name, text) => text.map (name, ·)
  let written := project.documentParts.map fun (name, value) => (name, value.attributeText)
  ⟨(declared ++ written).foldl (fun texts (name, text) => texts.insertNew name text) ∅⟩

/-- The text of an attribute. -/
def get? (lookup : Lookup) (name : String) : Option String := lookup.texts.get? name

end Lookup

end TaskEngine
