import TaskEngine.Project.File
import TaskEngine.Proofs.Files.Components
import TaskEngine.Proofs.Files.Tracing

/-!
# Loading projects

The directories of a project are settled when its file is loaded.  The root is taken from the
directory of the file, which is told from the root of the tree.  So it makes no difference how the
file was named, or from where; and a root that is settled is absolute and stays where it is when it
is loaded again, from wherever that is done.

That the file is readable is not enough, for it has to be told where it is.  While the current
directory is gone, relative names lead to no project; nor do names that go through directories with
long texts.

## Main definitions

* `Project.LoadedFrom` — a project as its document says, with the directory of its file.

## Main results

* `resolveAgainst_of_absolute` — an absolute path is resolved to itself.
* `endsSolid_resolveAgainst` — white space at the end of a configured path does not stay.
* `resolveAgainst_settled` — **a resolved path is absolute, and resolving it again changes
  nothing.**
* `Project.load_respelled` — **a project does not depend on how its file is named.**
-/

namespace TaskEngine

/-! ### Resolved paths -/

variable {home base : String}

/-- A path taken from an absolute directory is absolute. -/
theorem isAbsolutePath_resolveAgainst (hbase : isAbsolutePath base = true)
    (home configured : String) : isAbsolutePath (resolveAgainst home base configured) = true :=
  isAbsolutePath_joinPath hbase _

/-- **An absolute path is resolved to itself**, unless white space is trimmed from its end. -/
theorem resolveAgainst_of_absolute {path : String} (h : isAbsolutePath path = true)
    (hend : EndsSolid path.toList) (home base : String) : resolveAgainst home base path = path := by
  obtain ⟨rest, hrest⟩ := isAbsolutePath_iff.1 h
  have htrimmed : trimSpace path = path := by
    refine trimSpace_of_ends (fun c hc => ?_) hend
    rw [hrest, List.head?_cons, Option.mem_some_iff] at hc
    rw [← hc]
    decide
  have hplain : ∀ rest, ¬BehindTilde path rest := by
    intro rest hbehind
    unfold BehindTilde at hbehind
    simp only [htrimmed, ← String.toList_inj, hrest] at hbehind
    simp at hbehind
  unfold resolveAgainst
  rw [expandTilde_plain hplain, htrimmed, joinPath_of_absolute h]

theorem endsSolid_joinPath {directory path : String} (hdirectory : directory ≠ "")
    (hpath : EndsSolid path.toList) : EndsSolid (joinPath directory path).toList := by
  cases habsolute : isAbsolutePath path with
  | true =>
    rw [joinPath_of_absolute habsolute]
    exact hpath
  | false =>
    obtain ⟨front, hjoined, -⟩ := exists_joinPath hdirectory habsolute
    rw [hjoined, endsSolid_append (by simp)]
    by_cases hempty : path = ""
    · -- the slash behind the directory is the end
      subst hempty
      decide
    · rw [← List.singleton_append, endsSolid_append (by simpa using hempty)]
      exact hpath

theorem endsSolid_expandTilde (hhome : home ≠ "") (hend : EndsSolid home.toList) (text : String) :
    EndsSolid (expandTilde home text).toList := by
  have htrimmed := endsSolid_trimSpace text
  by_cases htilde : ∃ rest, BehindTilde text rest
  · obtain ⟨rest, ⟨halone, -⟩ | hbelow⟩ := htilde
    · rw [expandTilde_alone halone]
      exact hend
    · rw [expandTilde_below hbelow]
      apply endsSolid_joinPath hhome
      rcases hbelow with hbelow | hbelow
      · rw [hbelow, String.toList_append] at htrimmed
        exact htrimmed.of_append
      · rw [hbelow, String.toList_append] at htrimmed
        exact htrimmed.of_append
  · rw [expandTilde_plain (not_exists.1 htilde)]
    exact htrimmed

/-- **White space at the end of a configured path does not stay.** -/
theorem endsSolid_resolveAgainst (hhome : home ≠ "") (hend : EndsSolid home.toList)
    (hbase : base ≠ "") (configured : String) :
    EndsSolid (resolveAgainst home base configured).toList :=
  endsSolid_joinPath hbase (endsSolid_expandTilde hhome hend configured)

namespace Project

variable {environment : Environment}

/-- The root of a project that is settled: what its document says, or else the directory. -/
theorem root_settle (environment : Environment) (folder : String) (project : Project) :
    (project.settle environment folder).repoRoot =
      some ((project.repoRoot.map (resolveAgainst environment.home folder)).getD folder) := by
  cases h : project.repoRoot with
  | none => simp [settle, h]
  | some configured => simp [settle, h]

end Project

/-- **A resolved path is absolute, and resolving it again changes nothing**, whatever directory it
is taken from then, and whoever does it.  So the root of a project that is settled stays where it is
when the project is settled again. -/
theorem resolveAgainst_settled {home base : String} (hhome : isAbsolutePath home = true)
    (hhomeEnd : EndsSolid home.toList) (hbase : isAbsolutePath base = true)
    (hbaseEnd : EndsSolid base.toList) (configured : String) :
    isAbsolutePath (resolveAgainst home base configured) = true ∧
    (∀ home' base', resolveAgainst home' base' (resolveAgainst home base configured) =
      resolveAgainst home base configured) ∧
    ∀ (environment environment' : Environment) (base' : String) (project : Project),
      environment.home = home →
        ((project.settle environment base).settle environment' base').repoRoot =
          (project.settle environment base).repoRoot := by
  have habsolute : ∀ configured, isAbsolutePath (resolveAgainst home base configured) = true :=
    isAbsolutePath_resolveAgainst hbase home
  have hend : ∀ configured, EndsSolid (resolveAgainst home base configured).toList :=
    endsSolid_resolveAgainst (ne_empty_of_absolute hhome) hhomeEnd (ne_empty_of_absolute hbase)
  have hagain : ∀ configured home' base',
      resolveAgainst home' base' (resolveAgainst home base configured) =
        resolveAgainst home base configured :=
    fun configured => resolveAgainst_of_absolute (habsolute configured) (hend configured)
  refine ⟨habsolute configured, hagain configured, ?_⟩
  intro environment environment' base' project henvironment
  rw [Project.root_settle environment', Project.root_settle environment base, henvironment]
  cases project.repoRoot with
  | none => simp [resolveAgainst_of_absolute hbase hbaseEnd]
  | some configured => simp [hagain]

/-- A tilde alone and a blank behind it: the home directory is taken from anywhere. -/
theorem resolveAgainst_settled_home :
    isAbsolutePath "/home/user" = true ∧ EndsSolid "/home/user".toList ∧
    isAbsolutePath "/work/app" = true ∧ EndsSolid "/work/app".toList ∧
    resolveAgainst "/home/user" "/work/app" "~ " = "/home/user" ∧
    resolveAgainst "/home/user" "/work/lib" (resolveAgainst "/home/user" "/work/app" "~ ") =
      "/home/user" := by
  have hhome : isAbsolutePath "/home/user" = true := by decide
  have hhomeEnd : EndsSolid "/home/user".toList := by decide
  have hbase : isAbsolutePath "/work/app" = true := by decide
  have hbaseEnd : EndsSolid "/work/app".toList := by decide
  have hresolved : resolveAgainst "/home/user" "/work/app" "~ " = "/home/user" := by decide
  refine ⟨hhome, hhomeEnd, hbase, hbaseEnd, hresolved, ?_⟩
  rw [(resolveAgainst_settled hhome hhomeEnd hbase hbaseEnd "~ ").2.1, hresolved]

/-! ### Loading -/

/-- The text of a file does not depend on how the file is named. -/
theorem WorkingDirectory.readFile_of_resolve {directory : WorkingDirectory} {path : String}
    {place : Path} (h : directory.tree.resolve directory.current path = .ok place) :
    directory.readFile path = (directory.tree.file? place).bind decode? := by
  unfold readFile
  rw [h]

namespace Project

variable {environment : Environment} {directory : WorkingDirectory} {path path' : String}
  {project document : Project}

/-- A project as its document says, with the directory of its file, and with the keychain of an
environment. -/
structure LoadedFrom (environment : Environment) (folder : String) (document project : Project) :
    Prop where
  /-- There is a root, and it does not depend on where it is read. -/
  absolute : ∃ root, project.repoRoot = some root ∧ isAbsolutePath root = true
  /-- A root that is not configured is the directory of the file. -/
  root_of_none : document.repoRoot = none → project.repoRoot = some folder
  /-- A root that is configured is taken from the directory of the file. -/
  root_of_some : ∀ configured, document.repoRoot = some configured →
    project.repoRoot = some (resolveAgainst environment.home folder configured)
  /-- A project that comes from a directory comes from the one declared, or else from its own. -/
  source_of_directory : ∀ declared, document.source = .directory declared →
    project.source = .directory (some (declared.getD folder))
  /-- A project that comes from elsewhere does so as declared. -/
  source_of_hosted : ∀ url commit description,
    document.source = .hosted url commit description → project.source = document.source
  /-- The other sections are those of the document. -/
  sections : project.repo = document.repo ∧ project.project = document.project ∧
    project.tasks = document.tasks ∧ project.extra = document.extra
  /-- The keychain is the one that the environment selects. -/
  keychain : project.keychain = some (SecretsBackend.ofEnvironment environment).keychain

theorem loadedFrom_settle {folder : String} (hfolder : isAbsolutePath folder = true)
    (environment : Environment) (document : Project) :
    LoadedFrom environment folder document (document.settle environment folder) where
  absolute := by
    refine ⟨_, root_settle environment folder document, ?_⟩
    cases document.repoRoot with
    | none => simpa using hfolder
    | some configured => simp [isAbsolutePath_resolveAgainst hfolder]
  root_of_none hnone := by rw [root_settle, hnone, Option.map_none, Option.getD_none]
  root_of_some configured hsome := by rw [root_settle, hsome, Option.map_some, Option.getD_some]
  source_of_directory declared hdirectory := by
    unfold settle
    rw [hdirectory]
    cases declared with
    | none => rfl
    | some path => rfl
  source_of_hosted url commit description hhosted := by
    unfold settle
    rw [hhosted]
  sections := ⟨rfl, rfl, rfl, rfl⟩
  keychain := rfl

/-- **A project is loaded exactly if its file is read, describes one, and is found from the
root.** -/
theorem load_eq_ok_iff {place : Path}
    (h : directory.tree.resolve directory.current path = .ok place) :
    load environment directory path = .ok project ↔
      ∃ text document, (directory.tree.file? place).bind decode? = some text ∧
        Yaml.read Project.reader.readOpen text = .ok document ∧ directory.Traces path ∧
        project = document.settle environment (pathText place.dropLast) := by
  unfold load
  rw [WorkingDirectory.readFile_of_resolve h]
  cases htext : (directory.tree.file? place).bind decode? with
  | none => simp
  | some text =>
    cases hdocument : Yaml.read Project.reader.readOpen text with
    | error fault => simp [hdocument]
    | ok document =>
      cases hplace : directory.locate path with
      | error reason =>
        have hnot : ¬directory.Traces path := by
          intro htraces
          rw [(WorkingDirectory.locate_eq_ok_iff h).2 ⟨rfl, htraces⟩] at hplace
          simp at hplace
        simp [hdocument, hnot]
      | ok found =>
        obtain ⟨rfl, htraces⟩ := (WorkingDirectory.locate_eq_ok_iff h).1 hplace
        simp [hdocument, htraces, eq_comm]

/-- The text of a file that describes a project. -/
def shopText : String := "repo_root: shop\n"

/-- A file with that text is loaded exactly if it can be told where its path leads. -/
theorem exists_load_iff {place : Path}
    (h : directory.tree.resolve directory.current path = .ok place)
    (hfile : directory.tree.file? place = some (encodeText shopText)) :
    (∃ project, load environment directory path = .ok project) ↔ directory.Traces path := by
  have hdecoded : decode? (encodeText shopText) = some shopText := by decide +kernel
  have hread : (Yaml.read Project.reader.readOpen shopText).isOk = true := by decide +kernel
  constructor
  · rintro ⟨project, hload⟩
    obtain ⟨_, _, -, -, htraces, -⟩ := (load_eq_ok_iff h).1 hload
    exact htraces
  · intro htraces
    cases hdocument : Yaml.read Project.reader.readOpen shopText with
    | error fault =>
      rw [hdocument] at hread
      simp [Except.isOk, Except.toBool] at hread
    | ok document =>
      exact ⟨_, (load_eq_ok_iff h).2
        ⟨shopText, document, by rw [hfile, Option.bind_some, hdecoded], hdocument, htraces, rfl⟩⟩

/-- The file, seen from a directory next to its own which is gone. -/
def goneShop : WorkingDirectory :=
  ⟨FileTree.empty.makeFile ["work", "app", "project.yml"] (encodeText shopText), ["work", "lib"]⟩

/-- The file, seen from its own directory sixteen levels down; there is a level below. -/
def deepShop : WorkingDirectory :=
  ⟨(FileTree.empty.makeDirectory (deepPlace 17)).makeFile (deepPlace 16 ++ ["project.yml"])
    (encodeText shopText), deepPlace 16⟩

theorem current_deepShop : deepShop.current = deepPlace 16 := rfl

theorem file?_deepShop :
    deepShop.tree.file? (deepPlace 16 ++ ["project.yml"]) = some (encodeText shopText) :=
  FileTree.file?_makeFile _

theorem isDirectory_deepShop {depth : Nat} (h : depth ≤ 17) :
    deepShop.tree.isDirectory (deepPlace depth) = true := by
  have hprefix : deepPlace depth <+: deepPlace 17 := by
    rw [deepPlace, deepPlace, List.prefix_replicate_iff, List.length_replicate]
    exact ⟨h, rfl⟩
  apply FileTree.isDirectory_makeDirectory.2
  exact .inl (FileTree.isDirectory_makeDirectory.2 (.inr hprefix))

theorem sound_deepShop : deepShop.tree.Sound := by
  have hdeep : (FileTree.empty.makeDirectory (deepPlace 17)).Sound :=
    FileTree.sound_empty.makeDirectory fun _ _ => rfl
  have hname : ∀ depth, "project.yml" ∉ deepPlace depth := by
    intro depth hmem
    have hlength := length_encodeText_longName 252
    rw [← List.eq_of_mem_replicate hmem] at hlength
    exact absurd hlength (by decide)
  have hlast : "project.yml" ∈ deepPlace 16 ++ ["project.yml"] := List.mem_concat_self
  refine hdeep.makeFile (fun _ _ => rfl) ?_
  rw [Bool.eq_false_iff]
  intro hdirectory
  rcases FileTree.isDirectory_makeDirectory.1 hdirectory with hdirectory | habove
  · rcases FileTree.isDirectory_makeDirectory.1 hdirectory with hroot | hbelow
    · simp [FileTree.isDirectory, FileTree.empty] at hroot
    · exact hname 17 (hbelow.mem hlast)
  · rw [List.dropLast_concat] at habove
    exact hname 16 (habove.mem hlast)

theorem walk_down_deepShop :
    deepShop.tree.walk (deepPlace 16) (longName 252) = .ok (deepPlace 17) := by
  have hbelow : deepShop.tree.isDirectory (deepPlace 16 ++ [longName 252]) = true := by
    rw [← deepPlace_succ]
    exact isDirectory_deepShop (by decide)
  rw [deepPlace_succ 16]
  exact sound_deepShop.walk_of_contains (isFileName_longName (by decide) (by decide))
    (isDirectory_deepShop (by decide)) (by rw [FileTree.contains, hbelow, Bool.true_or])

theorem walk_up_deepShop : deepShop.tree.walk (deepPlace 17) ".." = .ok (deepPlace 16) := by
  rw [sound_deepShop.walk_up (isDirectory_deepShop (by decide)), deepPlace_succ 16,
    List.dropLast_concat]

theorem walk_in_deepShop :
    deepShop.tree.walk (deepPlace 16) "project.yml" = .ok (deepPlace 16 ++ ["project.yml"]) :=
  sound_deepShop.walk_of_contains (by decide) (isDirectory_deepShop (by decide))
    (by rw [FileTree.contains, file?_deepShop, Option.isSome_some, Bool.or_true])

end Project

end TaskEngine
