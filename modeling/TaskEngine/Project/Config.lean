import TaskEngine.Project.Source
import TaskEngine.Service
import TaskEngine.Task.Config

/-!
# Projects

## Main definitions

* `RepoInfo` — the coordinates of a repository.
* `Project` — a repository with its sections and named tasks.
* `Project.taskConfig?` — the configuration of a named task.
* `Project.document` — the sections of a project as one value.
-/

namespace TaskEngine

/-- The coordinates of a repository. -/
structure RepoInfo where
  /-- The name of the repository. -/
  name : Option String
  /-- Who owns it. -/
  owner : Option String
  /-- Its address. -/
  url : Option String
  /-- The branch that is checked out. -/
  branch : Option String
  /-- The commit that is checked out. -/
  commit : Option String
  deriving DecidableEq

namespace RepoInfo

/-- Coordinates that say nothing. -/
def empty : RepoInfo := ⟨none, none, none, none, none⟩

/-- The fields of coordinates. -/
def toDocument (repo : RepoInfo) : Value :=
  .object [("name", .ofText? repo.name), ("owner", .ofText? repo.owner),
    ("url", .ofText? repo.url), ("branch", .ofText? repo.branch),
    ("commit", .ofText? repo.commit)]

/-- Reads coordinates. -/
def reader {D : Type} [DocumentNode D] : RecordReader D RepoInfo :=
  RepoInfo.mk <$> .optional "name" DocumentNode.text <*> .optional "owner" DocumentNode.text <*>
    .optional "url" DocumentNode.text <*> .optional "branch" DocumentNode.text <*>
    .optional "commit" DocumentNode.text

end RepoInfo

/-- A repository with its sections and named tasks. -/
structure Project where
  /-- The directory in which tasks run. -/
  repoRoot : Option String
  /-- The coordinates of the repository. -/
  repo : RepoInfo
  /-- The section about the project itself. -/
  project : OrderedMap Value
  /-- The named tasks. -/
  tasks : OrderedMap TaskConfig
  /-- Where the project comes from. -/
  source : ProjectSource
  /-- The other sections. -/
  extra : OrderedMap Value
  /-- The keychain that serves its tasks. -/
  keychain : Option Keychain

namespace Project

/-- The project that says nothing. -/
def empty : Project := ⟨none, .empty, ∅, ∅, default, ∅, none⟩

instance : Inhabited Project := ⟨empty⟩

/-- The configuration of a named task. -/
def taskConfig? (project : Project) (name : String) : Option TaskConfig :=
  (project.tasks.get? name).map (·.orNamed name)

/-- The named tasks with their configurations. -/
def tasksDocument (project : Project) : Value :=
  .object (project.tasks.entries.map fun (name, config) => (name, config.toDocument))

/-- The sections of a project, in the order in which they are written. -/
def toDocument (project : Project) : Value :=
  .object ([("repo_root", .ofText? project.repoRoot), ("repo", project.repo.toDocument),
      ("project", project.project.toObject), ("tasks", project.tasksDocument),
      ("source", project.source.toDocument)] ++ project.extra.entries)

/-- The sections as one value: the other sections, and over them the project and the tasks. -/
def document (project : Project) : Value :=
  (Value.object (project.extra.entries ++
    [("project", project.project.toObject), ("tasks", project.tasksDocument)])).canonical

/-- Reads a project; sections it does not know are kept. -/
def reader {D : Type} [DocumentNode D] : RecordReader D (OrderedMap Value → Project) :=
  (fun repoRoot repo project tasks source extra =>
      ⟨repoRoot, repo, project, tasks, source, extra, none⟩) <$>
    .optional "repo_root" DocumentNode.text <*>
    .withDefault "repo" RepoInfo.reader.read .empty <*>
    .withDefault "project" (readMap DocumentNode.value) ∅ <*>
    .withDefault "tasks" (readMap TaskConfig.reader.read) ∅ <*>
    .withDefault "source" ProjectSource.read default

end Project

end TaskEngine
