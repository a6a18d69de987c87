import TaskEngine.Proofs.Documents.Schemas
import TaskEngine.Proofs.Frozen.Steps

/-!
# Documents have a normal form

What is read from a document is written in a form of its own: with all fields that its record
declares, in their order, and without those that it does not know, unless the record keeps them.
This form is the normal form of the document.  It is read back as it was written, so to write it
again changes nothing.

## Main definitions

* `HasNormalForm` — whatever is read is read back from where it is written, and no key is repeated
  there.
* `Project.declaredNames`, `Project.Readable` — the fields of a project, and what they may hold to
  be read back.
* `DocumentKind` — the kinds of documents, how they are read and how they are written.

## Main results

* `Project.Readable.readOpen_nodeOf` — a project is read back with its other sections.
* `TaskConfig.hasNormalForm` and the like — documents of each kind have a normal form.
* `DocumentKind.read_write` — **what is read from a text is read back from the text it is written
  as.**
-/

namespace TaskEngine

open Json DocumentNode

/-- Whatever is read from a document, all of whose numbers are integers of words, is read back from
where it is written, and written without repeating a key. -/
def HasNormalForm {α : Type} (read : Node → Except Fault α) (write : α → Value) : Prop :=
  Ensures (Node.HoldsWords maxLevels) read fun content =>
    read (nodeOf maxLevels (write content)) = .ok content ∧ (write content).Unrepeating

/-! ### Records of texts -/

theorem RepoInfo.hasNormalForm : HasNormalForm RepoInfo.reader.read RepoInfo.toDocument :=
  fun _ _ repo _ => ⟨RepoInfo.read_nodeOf (by decide) repo, repo.unrepeating⟩

theorem ProjectSource.hasNormalForm : HasNormalForm ProjectSource.read ProjectSource.toDocument :=
  fun _ _ source _ => ⟨ProjectSource.read_nodeOf (by decide) source, source.unrepeating⟩

theorem StepDescriptor.hasNormalForm :
    HasNormalForm StepDescriptor.reader.read StepDescriptor.toDocument :=
  fun _ _ step _ => ⟨StepDescriptor.read_nodeOf (by decide) step, step.unrepeating⟩

/-! ### Records with values -/

theorem TaskConfig.hasNormalForm :
    HasNormalForm TaskConfig.reader.read TaskConfig.toDocument := by
  intro node hnode config hread
  have hreadable := TaskConfig.ensures_read maxLevels node hnode config hread
  exact ⟨hreadable.read_nodeOf (by decide), hreadable.unrepeating (by decide)⟩

theorem FrozenConfig.hasNormalForm :
    HasNormalForm FrozenConfig.reader.read FrozenConfig.toDocument := by
  intro node hnode config hread
  have hreadable := FrozenConfig.ensures_read maxLevels node hnode config hread
  exact ⟨hreadable.read_nodeOf (by decide), hreadable.unrepeating⟩

theorem Schema.hasNormalForm : HasNormalForm Schema.read Schema.toDocument := by
  intro node hnode schema hread
  have hreadable := Schema.ensures_read maxLevels node hnode schema hread
  have hdefaults : ∀ value ∈ schema.defaults,
      value.isNull = false ∧ ReadsAt (maxLevels - 2) value := by
    intro value hvalue
    obtain ⟨entry, hentry, hdefault⟩ := Schema.mem_defaults.1 hvalue
    exact hreadable entry hentry value hdefault
  have hlevels : 2 < maxLevels := by decide
  have hback := Schema.read_nodeOf hlevels fun value hvalue => (hdefaults value hvalue).2
  rw [Schema.withoutNulls_of_forall fun value hvalue => (hdefaults value hvalue).1] at hback
  exact ⟨hback, unrepeating_entries fun entry hentry => (hreadable entry hentry).unrepeating⟩

/-! ### Projects -/

namespace Project

variable {project : Project}

/-- The sections that every project has. -/
def declaredNames : List String := ["repo_root", "repo", "project", "tasks", "source"]

/-- All that a project holds is read back where it stands in it, and no other section has the name
of a declared one.  A keychain is not written. -/
structure Readable (project : Project) : Prop where
  about : ∀ entry ∈ project.project.entries, ReadsAt (maxLevels - 2) entry.2
  tasks : ∀ entry ∈ project.tasks.entries, entry.2.Readable (maxLevels - 2)
  apart : ∀ entry ∈ project.extra.entries, entry.1 ∉ declaredNames
  extra : ∀ entry ∈ project.extra.entries, ReadsAt (maxLevels - 1) entry.2
  keychain : project.keychain = none

/-- A project is made again of its declared sections. -/
theorem Readable.recovers (h : project.Readable) :
    Project.reader.Recovers (nodeOf (maxLevels - 1))
      (fun extra => ⟨project.repoRoot, project.repo, project.project, project.tasks,
        project.source, extra, none⟩)
      [("repo_root", some (.ofText? project.repoRoot)), ("repo", some project.repo.toDocument),
        ("project", some project.project.toObject), ("tasks", some project.tasksDocument),
        ("source", some project.source.toDocument)] := by
  have htasks : readMap TaskConfig.reader.read (nodeOf (maxLevels - 1) project.tasksDocument) =
      .ok project.tasks :=
    readMap_nodeOf (by decide) fun entry hentry => (h.tasks entry hentry).read_nodeOf (by decide)
  exact (((((recovers_text? (maxLevels - 1) "repo_root" project.repoRoot).map _).seq
    (RecordReader.recovers_withDefault (RepoInfo.read_nodeOf (by decide) project.repo) "repo"
      .empty)).seq
    (RecordReader.recovers_withDefault (readMap_toObject (by decide) h.about) "project" ∅)).seq
    (RecordReader.recovers_withDefault htasks "tasks" ∅)).seq
    (RecordReader.recovers_withDefault (ProjectSource.read_nodeOf (by decide) project.source)
      "source" default)

theorem nodup_known : ((Project.reader (D := Node)).known.map Prod.fst).Nodup := by decide

/-- **A project is read back with its other sections.** -/
theorem Readable.readOpen_nodeOf (h : project.Readable) :
    Project.reader.readOpen (nodeOf maxLevels project.toDocument) = .ok project := by
  have hread := Json.readOpen_nodeOf (by decide) h.recovers nodup_known (List.append_nil _).symm
    h.apart h.extra
  rw [List.append_nil, ← h.keychain] at hread
  exact hread

theorem Readable.unrepeating (h : project.Readable) : project.toDocument.Unrepeating := by
  have hkeys := h.recovers.nodup_around nodup_known (List.append_nil _).symm h.apart
  rw [List.append_nil] at hkeys
  have htasks : project.tasksDocument.Unrepeating :=
    unrepeating_entries fun entry hentry => (h.tasks entry hentry).unrepeating (by decide)
  refine .object hkeys (List.forall_mem_append.2 ⟨?_, fun entry hentry =>
    (h.extra entry hentry).unrepeating⟩)
  simp only [List.forall_mem_cons]
  exact ⟨unrepeating_ofText? _, project.repo.unrepeating, unrepeating_toObject h.about, htasks,
    project.source.unrepeating, List.forall_mem_nil _⟩

theorem ensures_readOpen :
    Ensures (Node.HoldsWords maxLevels) Project.reader.readOpen Readable := by
  refine RecordReader.Makes.readOpen (descends_holdsWords _) (.seq (.seq (.seq (.seq (.map
    (RecordReader.makes_optional (ensures_true _ _) _) ?_)
    (RecordReader.makes_withDefault (ensures_true _ _) _ trivial))
    (RecordReader.makes_withDefault (ensures_valueMap _) _ ?_))
    (RecordReader.makes_withDefault (ensures_readMap (descends_holdsWords _)
      (TaskConfig.ensures_read _)) _ ?_))
    (RecordReader.makes_withDefault (ensures_true _ _) _ trivial)) (ensures_value _)
  · intro repoRoot _ repo _ about habout tasks htasks source _ extra hapart hextra
    exact ⟨habout, htasks, hapart, hextra, rfl⟩
  · exact fun entry hentry => absurd hentry List.not_mem_nil
  · exact fun entry hentry => absurd hentry List.not_mem_nil

theorem hasNormalForm : HasNormalForm Project.reader.readOpen Project.toDocument := by
  intro node hnode project hread
  have hreadable := ensures_readOpen node hnode project hread
  exact ⟨hreadable.readOpen_nodeOf, hreadable.unrepeating⟩

end Project

/-! ### Steps -/

namespace UiStep

variable {step : UiStep}

theorem Readable.unrepeating (h : step.Readable) : step.toDocument.Unrepeating := by
  have hconfig : step.taskConfig.Readable (maxLevels - 1) :=
    ⟨fun entry hentry => (h.options entry hentry).valueOf,
      fun check hcheck => (h.checks check hcheck).valueOf⟩
  have hsource : ReadsAt (maxLevels - 1) step.source := h.source.valueOf
  have hextra : ∀ entry ∈ step.extra.entries, ReadsAt (maxLevels - 1) entry.2 :=
    fun entry hentry => (h.extra entry hentry).valueOf
  refine .object h.apart.nodup ?_
  simp only [List.forall_mem_append, List.forall_mem_cons]
  exact ⟨⟨⟨unrepeating_ofText? _, .string _, .bool _, List.forall_mem_nil _⟩,
    fun entry hentry => (hextra entry hentry).unrepeating⟩, .string _, .string _,
    unrepeating_ofText? _, hconfig.unrepeating, hsource.unrepeating, List.forall_mem_nil _⟩

theorem ensures_readOpen :
    Ensures (Node.HoldsWords maxLevels) UiStep.reader.readOpen Readable := by
  refine RecordReader.Makes.readOpen (descends_holdsWords _) (.seq (.seq (.seq (.seq (.seq (.seq
    (.seq (.map
    (RecordReader.makes_optional (ensures_true _ _) _) ?_)
    (RecordReader.makes_required (ensures_true _ _) _))
    (RecordReader.makes_required (ensures_true _ _) _))
    (RecordReader.makes_required (ensures_true _ _) _))
    (RecordReader.makes_required (ensures_true _ _) _))
    (RecordReader.makes_optional (ensures_true _ _) _))
    (RecordReader.makes_required (FrozenConfig.ensures_read _) _))
    (RecordReader.makes_required (ensures_value _) _)) (ensures_value _)
  intro name _ kind _ isRequired _ path _ stepNum _ taskClass _ taskConfig hconfig source hsource
    extra hapart hextra
  exact ⟨hapart, fun entry hentry => (readsBack_iff (by decide)).2 (hextra entry hentry),
    fun entry hentry => (readsBack_iff (by decide)).2 (hconfig.options entry hentry),
    fun check hcheck => (readsBack_iff (by decide)).2 (hconfig.checks check hcheck),
    (readsBack_iff (by decide)).2 hsource⟩

theorem hasNormalForm : HasNormalForm UiStep.reader.readOpen UiStep.toDocument := by
  intro node hnode step hread
  have hreadable := ensures_readOpen node hnode step hread
  exact ⟨readOpen_nodeOf hreadable, hreadable.unrepeating⟩

end UiStep

/-! ### All kinds of documents -/

/-- The kinds of documents. -/
inductive DocumentKind
  | taskConfig
  | project
  | source
  | repo
  | step
  | schema
  | frozenConfig
  | uiStep

namespace DocumentKind

/-- What is read from a document. -/
def Content : DocumentKind → Type
  | taskConfig => TaskConfig
  | project => Project
  | source => ProjectSource
  | repo => RepoInfo
  | step => StepDescriptor
  | schema => Schema
  | frozenConfig => FrozenConfig
  | uiStep => UiStep

/-- How it is read. -/
def read : (kind : DocumentKind) → Node → Except Fault kind.Content
  | taskConfig => TaskConfig.reader.read
  | project => Project.reader.readOpen
  | source => ProjectSource.read
  | repo => RepoInfo.reader.read
  | step => StepDescriptor.reader.read
  | schema => Schema.read
  | frozenConfig => FrozenConfig.reader.read
  | uiStep => UiStep.reader.readOpen

/-- How it is written. -/
def write : (kind : DocumentKind) → kind.Content → Value
  | taskConfig => TaskConfig.toDocument
  | project => Project.toDocument
  | source => ProjectSource.toDocument
  | repo => RepoInfo.toDocument
  | step => StepDescriptor.toDocument
  | schema => Schema.toDocument
  | frozenConfig => FrozenConfig.toDocument
  | uiStep => UiStep.toDocument

theorem hasNormalForm (kind : DocumentKind) : HasNormalForm kind.read kind.write := by
  cases kind with
  | taskConfig => exact TaskConfig.hasNormalForm
  | project => exact Project.hasNormalForm
  | source => exact ProjectSource.hasNormalForm
  | repo => exact RepoInfo.hasNormalForm
  | step => exact StepDescriptor.hasNormalForm
  | schema => exact Schema.hasNormalForm
  | frozenConfig => exact FrozenConfig.hasNormalForm
  | uiStep => exact UiStep.hasNormalForm

/-- The entries that are kept although the record does not know them. -/
def extra : (kind : DocumentKind) → kind.Content → OrderedMap Value
  | project => Project.extra
  | uiStep => UiStep.extra
  | _ => fun _ => ∅

/-- The fields that are written next to such entries. -/
def declaredNames : DocumentKind → List String
  | project => Project.declaredNames
  | uiStep => UiStep.declaredNames
  | _ => []

/-- Where no key is repeated, no entry that is kept has the name of a field. -/
theorem extra_apart {kind : DocumentKind} {content : kind.Content}
    (h : (kind.write content).Unrepeating) :
    ∀ name ∈ (kind.extra content).keys, name ∉ kind.declaredNames := by
  cases kind with
  | project =>
    cases h with
    | object differ each =>
      rw [List.map_append, List.nodup_append] at differ
      exact fun name hname hdeclared => differ.2.2 name hdeclared name hname rfl
  | uiStep =>
    cases h with
    | object differ each =>
      rw [List.map_append, List.map_append, List.nodup_append, List.nodup_append] at differ
      obtain ⟨⟨-, -, hfront⟩, -, hback⟩ := differ
      intro name hname hdeclared
      rcases List.mem_append.1 hdeclared with hdeclared | hdeclared
      · exact hfront name hdeclared name hname rfl
      · exact hback name (List.mem_append_right _ hname) name hdeclared rfl
  | taskConfig | source | repo | step | schema | frozenConfig =>
    exact fun name _ => List.not_mem_nil

/-- **What is read from a text is read back from the text it is written as**, if all numbers were
written as integers of words.  So the text that is written is written once more as it is.  No key is
repeated in it, and nothing that is kept has the name of a declared field. -/
theorem read_write (kind : DocumentKind) {text : String} {content : kind.Content}
    (hwords : ∀ lexeme ∈ (Json.parse text).tree.numbers, lexeme.IsWord)
    (hread : Json.read kind.read text = .ok content) :
    Json.read kind.read (kind.write content).text = .ok content ∧
      (kind.write content).Unrepeating ∧
      ∀ name ∈ (kind.extra content).keys, name ∉ kind.declaredNames := by
  have hnode : Json.Node.HoldsWords maxLevels ⟨maxLevels, (Json.parse text).tree⟩ := ⟨rfl, hwords⟩
  rw [Json.read] at hread
  obtain ⟨found, hfound, hread⟩ := bind_eq_ok.1 hread
  split at hread
  · cases hread
  · cases hread
    obtain ⟨hback, hunrepeating⟩ := kind.hasNormalForm _ hnode content hfound
    rw [read_text]
    exact ⟨hback, hunrepeating, extra_apart hunrepeating⟩

/-- A project that names the path of its source before the kind, repeats keys where they may be
repeated, has a section of its own, and an entry that no configuration knows. -/
def unordered : Value :=
  .object [("limits", .ofNat 18446744073709551615), ("source", .object [("path", .null),
      ("type", .string "local")]),
    ("tasks", .object [("build", .object [("options", .object [("b", .bool true),
      ("a", .ofInt (-1)), ("b", .null)]), ("since", .ofNat 2)])]),
    ("limits", .object [("y", .array []), ("x", .null), ("y", .ofNat 7)])]

/-- What is read from it. -/
def ordered : Project :=
  { Project.empty with
    tasks := .ofList [("build", { TaskConfig.empty with
      options := some (.ofList [("b", .null), ("a", .ofInt (-1))]) })]
    extra := .ofList [("limits", .object [("x", .null), ("y", .ofNat 7)])] }

theorem read_write_unordered :
    (∀ lexeme ∈ (Json.parse unordered.text).tree.numbers, lexeme.IsWord) ∧
      Json.read project.read unordered.text = .ok ordered ∧
      Json.read project.read (project.write ordered).text = .ok ordered := by
  have hwords : ∀ lexeme ∈ (Json.parse unordered.text).tree.numbers, lexeme.IsWord := by
    rw [parse_text]
    decide +kernel
  have hread : Json.read project.read unordered.text = .ok ordered := by
    rw [read_text]
    rfl
  exact ⟨hwords, hread, (project.read_write hwords hread).1⟩

end DocumentKind

end TaskEngine
