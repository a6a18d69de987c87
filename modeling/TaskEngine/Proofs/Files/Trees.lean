import TaskEngine.Proofs.Files.Names
import Mathlib.Data.List.Induction

/-!
# Sound trees

Whoever goes anywhere in a tree comes to a directory, and the system takes the names on the way
there.  Back to that directory there is a way from everywhere, through its text; but the system
walks texts of a certain length only, and short steps lead to places with long texts.  Making and
taking away directories leaves a tree sound.

## Main definitions

* `IsFileName` — a name that the system takes.
* `Path.Named` — a place with such names.
* `Path.Short` — a place whose text is short enough to be walked.
* `deepPlace` — places with texts of any length.
* `FileTree.Sound` — there are directories above every directory.

## Main results

* `FileTree.Sound.makeDirectory`, `FileTree.Sound.removeBelow` — trees stay sound.
* `FileTree.Sound.resolve_pathText` — the text of a directory names that directory, if it is short.
* `WorkingDirectory.isDirectory_of_change`, `WorkingDirectory.named_of_change` — going somewhere
  leads to a directory, and the system takes its names.
* `WorkingDirectory.leave_of_short`, `WorkingDirectory.leave_of_not_short` — **a guard leads back to
  a directory exactly if its text is short.**
-/

namespace TaskEngine

/-! ### Places and their texts -/

/-- A name that the system takes. -/
def IsFileName (name : String) : Prop :=
  IsName name ∧ '\x00' ∉ name.toList ∧ (encodeText name).length ≤ maxNameLength

instance (name : String) : Decidable (IsFileName name) := inferInstanceAs (Decidable (_ ∧ _))

namespace Path

/-- A place whose names the system takes. -/
def Named (path : Path) : Prop := ∀ name ∈ path, IsFileName name

instance (path : Path) : Decidable path.Named := List.decidableBAll _ path

/-- A place whose text is short enough to be walked. -/
def Short (path : Path) : Prop := path.textLength ≤ maxPathLength

instance (path : Path) : Decidable path.Short := Nat.decLe _ _

variable {path place : Path}

theorem Named.proper (h : path.Named) : path.Proper := by
  intro name hname
  exact (h name hname).1

theorem Named.nul_notMem_pathText (h : path.Named) : '\x00' ∉ (pathText path).toList := by
  rw [pathText, String.toList_append, String.toList_intercalate, List.mem_append, not_or]
  refine ⟨by decide, ?_⟩
  induction path with
  | nil => simp
  | cons name path ih =>
    have hname := (h name List.mem_cons_self).2.1
    have hpath := ih fun name hmem => h name (List.mem_cons_of_mem _ hmem)
    cases path with
    | nil => simpa using hname
    | cons next path =>
      rw [List.map_cons, List.map_cons, List.intercalate_cons_cons, ← List.map_cons]
      simp only [List.mem_append, not_or]
      exact ⟨⟨hname, by decide⟩, hpath⟩

end Path

variable {path : Path}

theorem textLength_singleton (name : String) :
    Path.textLength [name] = (encodeText name).length + 1 := by
  simp [Path.textLength, encodeText, pathText, encodeChar, byte]

/-- Behind the first name, the text of a place goes on like that of a place. -/
theorem textLength_cons (name : String) (hne : path ≠ []) :
    Path.textLength (name :: path) = Path.textLength [name] + path.textLength := by
  cases path with
  | nil => exact absurd rfl hne
  | cons next path =>
    simp only [Path.textLength, encodeText, pathText, String.toList_append,
      String.toList_intercalate, List.map_cons, List.map_nil, List.intercalate_cons_cons,
      List.intercalate_singleton, List.flatMap_append, List.length_append]
    omega

theorem textLength_append {rest : Path} (hpath : path ≠ []) (hrest : rest ≠ []) :
    Path.textLength (path ++ rest) = path.textLength + rest.textLength := by
  induction path with
  | nil => exact absurd rfl hpath
  | cons name path ih =>
    cases path with
    | nil => exact textLength_cons name hrest
    | cons next path =>
      have hnext : next :: path ≠ [] := List.cons_ne_nil next path
      rw [List.cons_append, textLength_cons name (List.append_ne_nil_of_left_ne_nil hnext rest),
        ih hnext, textLength_cons name hnext, Nat.add_assoc]

/-! ### Deep places -/

/-- A name of as many letters as one likes. -/
def longName (length : Nat) : String := String.ofList (List.replicate length 'a')

/-- A place as deep as one likes, with a name of 252 letters on each level. -/
def deepPlace (depth : Nat) : Path := List.replicate depth (longName 252)

theorem deepPlace_succ (depth : Nat) :
    deepPlace (depth + 1) = deepPlace depth ++ [longName 252] := List.replicate_succ'

theorem encodeText_append (front back : String) :
    encodeText (front ++ back) = encodeText front ++ encodeText back := by
  simp [encodeText]

theorem length_encodeText_longName (length : Nat) :
    (encodeText (longName length)).length = length := by
  have hchar : (encodeChar 'a').length = 1 := by decide
  simp [encodeText, longName, List.flatMap_replicate, hchar]

theorem isFileName_longName {length : Nat} (hpos : 0 < length) (hlength : length ≤ maxNameLength) :
    IsFileName (longName length) := by
  have hmem : ∀ c ∈ (longName length).toList, c = 'a' := by
    intro c hc
    rw [longName, String.toList_ofList] at hc
    exact List.eq_of_mem_replicate hc
  have hhead : 'a' ∈ (longName length).toList := by simp [longName, Nat.ne_of_gt hpos]
  refine ⟨⟨?_, ?_, ?_, ?_⟩, ?_, ?_⟩
  · intro hempty
    simp [hempty] at hhead
  · exact fun hc => absurd (hmem _ hc) (by decide)
  · intro hdot
    simp [hdot] at hhead
  · intro hdots
    simp [hdots] at hhead
  · exact fun hc => absurd (hmem _ hc) (by decide)
  · rw [length_encodeText_longName]
    exact hlength

theorem named_deepPlace (depth : Nat) : (deepPlace depth).Named := by
  intro name hname
  rw [deepPlace, List.mem_replicate] at hname
  rw [hname.2]
  exact isFileName_longName (by decide) (by decide)

/-- Each level of a deep place takes 253 bytes of its text. -/
theorem textLength_deepPlace {depth : Nat} (hpos : 0 < depth) :
    (deepPlace depth).textLength = 253 * depth := by
  have hlevel : Path.textLength [longName 252] = 253 := by
    rw [textLength_singleton, length_encodeText_longName]
  induction depth with
  | zero => exact absurd hpos (Nat.lt_irrefl 0)
  | succ depth ih =>
    cases depth with
    | zero => exact hlevel
    | succ depth =>
      have hne : deepPlace (depth + 1) ≠ [] := by simp [deepPlace]
      rw [deepPlace, List.replicate_succ, ← deepPlace, textLength_cons _ hne, hlevel,
        ih (Nat.succ_pos depth)]
      omega

/-- Down to the sixteenth level, deep places have short texts. -/
theorem short_deepPlace_iff {depth : Nat} : (deepPlace depth).Short ↔ depth ≤ 16 := by
  cases depth with
  | zero =>
    have hroot : (deepPlace 0).Short := by decide
    simp [hroot]
  | succ depth =>
    rw [Path.Short, textLength_deepPlace (Nat.succ_pos depth), maxPathLength]
    omega

/-! ### Sound trees -/

namespace FileTree

/-- A tree in which every directory can be reached from the root. -/
structure Sound (tree : FileTree) : Prop where
  /-- What is above a directory is one. -/
  above : ∀ path ∈ tree.directories, tree.isDirectory path.dropLast = true
  /-- No directory is a file as well. -/
  apart : ∀ path, tree.isDirectory path = true → tree.file? path = none

variable {tree : FileTree} {path place : Path}

theorem isDirectory_iff : tree.isDirectory path = true ↔ path = [] ∨ path ∈ tree.directories := by
  simp [isDirectory]

theorem Sound.isDirectory_dropLast (hsound : tree.Sound) (h : tree.isDirectory path = true) :
    tree.isDirectory path.dropLast = true := by
  rcases isDirectory_iff.1 h with rfl | hmem
  · exact h
  · exact hsound.above path hmem

/-- Whatever is above a directory is one. -/
theorem Sound.isDirectory_of_append (hsound : tree.Sound) {below : Path}
    (h : tree.isDirectory (path ++ below) = true) : tree.isDirectory path = true := by
  induction below using List.reverseRecOn with
  | nil => simpa using h
  | append_singleton below name ih =>
    apply ih
    simpa [← List.append_assoc] using hsound.isDirectory_dropLast h

/-! #### Trees that stay sound -/

theorem sound_empty : empty.Sound := by
  refine ⟨by simp [empty], ?_⟩
  intro path _
  rfl

theorem isDirectory_makeDirectory :
    (tree.makeDirectory path).isDirectory place = true ↔
      tree.isDirectory place = true ∨ place <+: path := by
  simp only [isDirectory_iff, makeDirectory, List.mem_append, List.mem_filter, List.mem_map,
    List.mem_range, Bool.not_eq_true']
  constructor
  · rintro (hroot | hold | ⟨⟨n, -, rfl⟩, -⟩)
    · exact .inl (.inl hroot)
    · exact .inl (.inr hold)
    · exact .inr (List.take_prefix _ _)
  · rintro (hold | hprefix)
    · exact hold.imp id .inl
    · by_cases hthere : tree.isDirectory place = true
      · exact (isDirectory_iff.1 hthere).imp id .inl
      · -- a directory that has to be made is one of those on the way
        have hpos : 0 < place.length := by
          rw [List.length_pos_iff]
          rintro rfl
          exact hthere rfl
        have hle := hprefix.length_le
        refine .inr (.inr ⟨⟨place.length - 1, by omega, ?_⟩, by simpa using hthere⟩)
        rw [Nat.sub_add_cancel hpos]
        exact (List.prefix_iff_eq_take.1 hprefix).symm

/-- When a directory is made with all directories above it, a sound tree is left. -/
theorem Sound.makeDirectory (hsound : tree.Sound)
    (hfree : ∀ place, place <+: path → tree.file? place = none) :
    (tree.makeDirectory path).Sound := by
  refine ⟨fun place hplace => ?_, fun place hplace => ?_⟩
  · apply isDirectory_makeDirectory.2
    rcases isDirectory_makeDirectory.1 (isDirectory_iff.2 (.inr hplace)) with hold | hprefix
    · exact .inl (hsound.isDirectory_dropLast hold)
    · exact .inr (place.dropLast_prefix.trans hprefix)
  · rcases isDirectory_makeDirectory.1 hplace with hold | hprefix
    · exact hsound.apart place hold
    · exact hfree place hprefix

/-- So it is when a file is put where no directory is. -/
theorem Sound.makeFile (hsound : tree.Sound) {content : Bytes}
    (hfree : ∀ place, place <+: path.dropLast → tree.file? place = none)
    (hpath : (tree.makeDirectory path.dropLast).isDirectory path = false) :
    (tree.makeFile path content).Sound := by
  obtain ⟨habove, hapart⟩ := hsound.makeDirectory hfree
  refine ⟨habove, fun place hplace => ?_⟩
  have hne : (place == path) = false := by
    rw [beq_eq_false_iff_ne]
    rintro rfl
    exact absurd (hplace.symm.trans hpath) (by decide)
  have hold := hapart place hplace
  unfold file? at hold ⊢
  rw [FileTree.makeFile, List.lookup_cons, hne]
  exact hold

@[simp] theorem file?_makeFile (content : Bytes) :
    (tree.makeFile path content).file? path = some content := by
  simp [FileTree.makeFile, file?]

/-- When a directory is taken away with everything below it, a sound tree is left. -/
theorem Sound.removeBelow (hsound : tree.Sound) (place : Path) :
    (tree.removeBelow place).Sound := by
  have hkept : ∀ {path}, path ∈ (tree.removeBelow place).directories ↔
      path ∈ tree.directories ∧ ¬place <+: path := by
    simp [FileTree.removeBelow, ← List.isPrefixOf_iff_prefix]
  refine ⟨fun path h => ?_, fun path h => ?_⟩
  · obtain ⟨hmem, hbelow⟩ := hkept.1 h
    rcases isDirectory_iff.1 (hsound.above path hmem) with hroot | habove
    · exact isDirectory_iff.2 (.inl hroot)
    · refine isDirectory_iff.2 (.inr (hkept.2 ⟨habove, ?_⟩))
      intro hplace
      exact hbelow (hplace.trans path.dropLast_prefix)
  · have hbefore : tree.isDirectory path = true :=
      isDirectory_iff.2 ((isDirectory_iff.1 h).imp id fun hmem => (hkept.1 hmem).1)
    have hfile := hsound.apart path hbefore
    unfold file? at hfile ⊢
    rw [List.lookup_eq_none_iff] at hfile ⊢
    intro file hmem
    exact hfile file (List.mem_of_mem_filter hmem)

/-! ### Walking to a directory -/

/-- From a directory one can walk to what is in it. -/
theorem Sound.walk_of_contains (hsound : tree.Sound) {name : String} (hname : IsFileName name)
    (hpath : tree.isDirectory path = true) (h : tree.contains (path ++ [name]) = true) :
    tree.walk path name = .ok (path ++ [name]) := by
  obtain ⟨⟨-, -, hdot, hdots⟩, -, hlength⟩ := hname
  unfold walk
  rw [hsound.apart path hpath]
  simp [hdot, hdots, Nat.not_lt.2 hlength, hpath, h]

/-- From a directory one can walk to the one above. -/
theorem Sound.walk_up (hsound : tree.Sound) (hpath : tree.isDirectory path = true) :
    tree.walk path ".." = .ok path.dropLast := by
  unfold walk
  rw [hsound.apart path hpath]
  simp

theorem Sound.walks_names (hsound : tree.Sound) {names : Path} (hnames : names.Named)
    (h : tree.isDirectory (path ++ names) = true) :
    names.foldlM tree.walk path = .ok (path ++ names) := by
  induction names generalizing path with
  | nil => simp [pure, Except.pure]
  | cons name names ih =>
    have hsplit : path ++ name :: names = path ++ [name] ++ names := by simp
    have hname : IsFileName name := hnames name List.mem_cons_self
    rw [hsplit] at h ⊢
    have hnext : tree.isDirectory (path ++ [name]) = true := hsound.isDirectory_of_append h
    have hwalk := hsound.walk_of_contains hname (hsound.isDirectory_of_append hnext)
      (by simp [contains, hnext])
    rw [walks_cons_of_ok hwalk]
    exact ih (fun name hmem => hnames name (List.mem_cons_of_mem _ hmem)) h

/-- **The text of a directory names that directory**, if it is short. -/
theorem Sound.resolve_pathText (hsound : tree.Sound) (h : tree.isDirectory path = true)
    (hnamed : path.Named) (hshort : path.Short) (current : Path) :
    tree.resolve current (pathText path) = .ok path := by
  have hnul := hnamed.nul_notMem_pathText
  refine resolve_of_walks hnul (pathText_ne_empty path) hshort ?_
  rw [if_pos (isAbsolutePath_pathText path)]
  by_cases hroot : path = []
  · subst hroot
    have hnames : pathNames (pathText []) = ["."] := by decide
    have hfile := hsound.apart [] h
    simp [hnames, walk, hfile, bind, Except.bind, pure, Except.pure]
  · rw [pathNames_pathText hnamed.proper hroot]
    exact hsound.walks_names hnamed h

/-- A text that is too long names nothing. -/
theorem resolve_of_not_short (tree : FileTree) (h : ¬path.Short) (current : Path) :
    ∃ reason, tree.resolve current (pathText path) = .error reason := by
  have hlong : maxPathLength < (encodeText (pathText path)).length := Nat.not_le.1 h
  unfold resolve
  rw [if_neg (pathText_ne_empty path), if_pos hlong]
  split
  · exact ⟨_, rfl⟩
  · exact ⟨_, rfl⟩

/-- Walking by a name, or by dots, leads from places with names that the system takes to others. -/
theorem named_of_walk {name : String} (hpath : path.Named) (hname : name ≠ "")
    (hslash : '/' ∉ name.toList) (hnul : '\x00' ∉ name.toList)
    (h : tree.walk path name = .ok place) : place.Named := by
  unfold walk at h
  split at h
  · simp at h
  split at h
  · rw [← Except.ok.inj h]
    exact hpath
  rename_i hdot
  split at h
  · rw [← Except.ok.inj h]
    exact fun name hmem => hpath name (List.dropLast_subset _ hmem)
  rename_i hdots
  split at h
  · simp at h
  rename_i hlength
  split at h
  · rw [← Except.ok.inj h]
    intro other hmem
    rcases List.mem_append.1 hmem with hmem | hmem
    · exact hpath other hmem
    · rw [List.mem_singleton.1 hmem]
      exact ⟨⟨hname, hslash, hdot, hdots⟩, hnul, Nat.not_lt.1 hlength⟩
  · simp at h

/-- The system takes the names of what a written path names. -/
theorem named_of_resolve {current : Path} {text : String} (hcurrent : current.Named)
    (h : tree.resolve current text = .ok place) : place.Named := by
  have hnames := @name_of_mem_namesFrom [] text.toList (by simp)
  have hnul : ∀ name ∈ pathNames text, '\x00' ∉ name.toList := by
    intro name hname hmem
    rcases mem_of_mem_namesFrom name hname _ hmem with htext | hdot
    · exact nul_notMem_of_resolve h htext
    · exact absurd hdot (by decide)
  refine holds_of_walks ?_ (fun name hmem {_ _} hpath =>
    named_of_walk hpath (hnames name hmem).1 (hnames name hmem).2 (hnul name hmem))
    (walks_of_resolve h)
  split
  · simp [Path.Named]
  · exact hcurrent

/-- Walking leads from directories to what there is. -/
theorem Sound.contains_of_walk (hsound : tree.Sound) {name : String}
    (hpath : tree.contains path = true) (h : tree.walk path name = .ok place) :
    tree.contains place = true := by
  unfold walk at h
  split at h
  · simp at h
  rename_i hfile
  split at h
  · rw [← Except.ok.inj h]
    exact hpath
  split at h
  · rw [← Except.ok.inj h]
    have hdirectory : tree.isDirectory path = true := by simpa [contains, hfile] using hpath
    simp [contains, hsound.isDirectory_dropLast hdirectory]
  split at h
  · simp at h
  split at h
  · rename_i hcontains
    rw [← Except.ok.inj h]
    simp only [Bool.and_eq_true] at hcontains
    exact hcontains.2
  · simp at h

theorem Sound.contains_of_resolve (hsound : tree.Sound) {current : Path} {text : String}
    (hcurrent : tree.isDirectory current = true) (h : tree.resolve current text = .ok place) :
    tree.contains place = true := by
  refine holds_of_walks ?_ (fun name _ {_ _} hpath => hsound.contains_of_walk hpath)
    (walks_of_resolve h)
  split
  · simp [contains, isDirectory]
  · simp [contains, hcurrent]

end FileTree

/-! ### Going to a directory -/

namespace WorkingDirectory

variable {directory changed : WorkingDirectory}

/-- **In a sound tree one can go to every directory**, if its text is short. -/
theorem change_pathText (hsound : directory.tree.Sound) {path : Path}
    (h : directory.tree.isDirectory path = true) (hnamed : path.Named) (hshort : path.Short) :
    directory.change (pathText path) = .ok { directory with current := path } := by
  unfold change FileTree.resolveDirectory
  simp [hsound.resolve_pathText h hnamed hshort, hsound.apart path h, bind, Except.bind, Except.map]

/-- Going somewhere leads to a directory. -/
theorem isDirectory_of_change (hsound : directory.tree.Sound)
    (hhere : directory.tree.isDirectory directory.current = true) {path : String}
    (h : directory.change path = .ok changed) :
    directory.tree.isDirectory changed.current = true := by
  obtain ⟨hresolve, hfile, -⟩ := change_eq_ok h
  have hcontains := hsound.contains_of_resolve hhere hresolve
  simpa [FileTree.contains, hfile] using hcontains

/-- Going somewhere leads to a place whose names the system takes. -/
theorem named_of_change (hnamed : directory.current.Named) {path : String}
    (h : directory.change path = .ok changed) : changed.current.Named :=
  FileTree.named_of_resolve hnamed (change_eq_ok h).1

/-- **A guard that is left leads back to the directory it remembers**, if its text is short. -/
theorem leave_of_short (hsound : directory.tree.Sound) {former : Path}
    (h : directory.tree.isDirectory former = true) (hnamed : former.Named)
    (hshort : former.Short) : directory.leave former = { directory with current := former } := by
  have hchange := change_pathText hsound h hnamed hshort
  have hcurrent : (directory.leave former).current = former := by
    apply current_leave hnamed.proper
    rw [hchange]
    rfl
  calc directory.leave former
      = ⟨(directory.leave former).tree, (directory.leave former).current⟩ := rfl
    _ = { directory with current := former } := by rw [tree_leave, hcurrent]

/-- **Otherwise it leads nowhere**: the process stays where it is. -/
theorem leave_of_not_short {former : Path} (h : ¬former.Short) :
    directory.leave former = directory := by
  obtain ⟨reason, hreason⟩ := directory.tree.resolve_of_not_short h directory.current
  have hchange : directory.change (pathText former) = .error reason := by
    unfold change FileTree.resolveDirectory
    rw [hreason]
    rfl
  unfold leave
  rw [hchange]
  split
  · rfl
  · rfl

end WorkingDirectory

end TaskEngine
