import TaskEngine.Files.WorkingDirectory
import Mathlib.Data.List.Basic

/-!
# Names and written paths

A place is *proper* if its names are names that a directory or a file can have.  Walking leads
from proper places to proper places.  A proper place is read from its own text, so whoever
can go to the text goes to the place, wherever he comes from.

## Main definitions

* `IsName` — a name that a directory or a file can have.
* `Path.Proper` — a place with such names.

## Main results

* `pathNames_pathText` — the names of a proper place are read from its text.
* `WorkingDirectory.proper_of_change` — going somewhere leads to a proper place.
* `WorkingDirectory.current_of_change` — **going to the text of a proper place leads there.**
* `WorkingDirectory.current_leave` — a guard goes back to the directory it remembers.
-/

namespace TaskEngine

/-- A name that a directory or a file can have: not empty, without slash, and no dots alone. -/
def IsName (name : String) : Prop := name ≠ "" ∧ '/' ∉ name.toList ∧ name ≠ "." ∧ name ≠ ".."

instance (name : String) : Decidable (IsName name) := inferInstanceAs (Decidable (_ ∧ _))

/-- A place whose names are names. -/
def Path.Proper (path : Path) : Prop := ∀ name ∈ path, IsName name

instance (path : Path) : Decidable path.Proper := inferInstanceAs (Decidable (∀ name ∈ path, _))

/-! ### Names in texts -/

theorem namesFrom_cons {c : Char} (hc : c ≠ '/') (start rest : List Char) :
    namesFrom start (c :: rest) = namesFrom (c :: start) rest := by
  rw [namesFrom]
  · exact hc
  · exact fun _ => hc

/-- A stretch without slash belongs to one name. -/
theorem namesFrom_append {front : List Char} (hfront : '/' ∉ front) (start rest : List Char) :
    namesFrom start (front ++ rest) = namesFrom (front.reverse ++ start) rest := by
  induction front generalizing start with
  | nil => rfl
  | cons c front ih =>
    rw [List.mem_cons, not_or] at hfront
    rw [List.cons_append, namesFrom_cons (Ne.symm hfront.1), ih hfront.2, List.reverse_cons,
      List.append_assoc, List.singleton_append]

theorem name_of_reverse {start : List Char} (hne : start ≠ []) (hstart : '/' ∉ start) :
    String.ofList start.reverse ≠ "" ∧ '/' ∉ (String.ofList start.reverse).toList := by
  rw [String.toList_ofList, List.mem_reverse]
  refine ⟨fun h => hne ?_, hstart⟩
  have hchars := congrArg String.toList h
  rw [String.toList_ofList] at hchars
  simpa using hchars

/-- The names of a text are not empty and have no slash. -/
theorem name_of_mem_namesFrom {start text : List Char} (hstart : '/' ∉ start) :
    ∀ name ∈ namesFrom start text, name ≠ "" ∧ '/' ∉ name.toList := by
  fun_induction namesFrom start text with
  | case1 => simp
  | case2 start hne =>
    simp only [List.mem_singleton, forall_eq]
    exact name_of_reverse hne hstart
  | case3 rest ih => exact ih hstart
  | case4 start rest hne ih =>
    simp only [List.mem_cons, forall_eq_or_imp]
    exact ⟨name_of_reverse hne hstart, ih (by simp)⟩
  | case5 start c rest h₁ h₂ ih =>
    refine ih ?_
    rw [List.mem_cons, not_or]
    exact ⟨fun hc => h₂ hc.symm, hstart⟩

/-- The characters of the names are those of the text, and dots. -/
theorem mem_of_mem_namesFrom {start text : List Char} :
    ∀ name ∈ namesFrom start text, ∀ c ∈ name.toList, c ∈ start ++ text ∨ c = '.' := by
  fun_induction namesFrom start text with
  | case1 => simp
  | case2 start hne =>
    intro name hname c hc
    rw [List.mem_singleton.1 hname, String.toList_ofList, List.mem_reverse] at hc
    exact .inl (List.mem_append_left _ hc)
  | case3 rest ih =>
    intro name hname c hc
    exact (ih name hname c hc).imp_left (List.mem_cons_of_mem _)
  | case4 start rest hne ih =>
    intro name hname c hc
    rcases List.mem_cons.1 hname with rfl | hname
    · rw [String.toList_ofList, List.mem_reverse] at hc
      exact .inl (List.mem_append_left _ hc)
    · refine (ih name hname c hc).imp_left fun h => ?_
      exact List.mem_append_right _ (List.mem_cons_of_mem _ h)
  | case5 start first rest h₁ h₂ ih =>
    intro name hname c hc
    exact (ih name hname c hc).imp_left List.perm_middle.mem_iff.2

/-- The text of a name is one name. -/
theorem namesFrom_name {name : String} (h : IsName name) : namesFrom [] name.toList = [name] := by
  have hne : name.toList ≠ [] := by simpa using h.1
  have hnames := namesFrom_append h.2.1 [] []
  rw [List.append_nil, List.append_nil] at hnames
  rw [hnames, namesFrom, List.reverse_reverse, String.ofList_toList]
  simpa using hne

/-- A name and a slash in front of a text. -/
theorem namesFrom_name_slash {name : String} (h : IsName name) (rest : List Char) :
    namesFrom [] (name.toList ++ '/' :: rest) = name :: namesFrom [] rest := by
  have hne : name.toList ≠ [] := by simpa using h.1
  rw [namesFrom_append h.2.1, List.append_nil, namesFrom, List.reverse_reverse,
    String.ofList_toList]
  simpa using hne

theorem pathNames_name_slash {name : String} (h : IsName name) (rest : String) :
    pathNames (name ++ "/" ++ rest) = name :: pathNames rest := by
  have hsplit : (name ++ "/" ++ rest).toList = name.toList ++ '/' :: rest.toList := by simp
  rw [pathNames, hsplit, namesFrom_name_slash h, pathNames]

/-- A path that starts with a name is relative. -/
theorem isAbsolutePath_name_slash {name : String} (h : IsName name) (rest : String) :
    isAbsolutePath (name ++ "/" ++ rest) = false := by
  cases hchars : name.toList with
  | nil => exact absurd (by simpa using hchars) h.1
  | cons c back =>
    have hc : c ≠ '/' := by
      rintro rfl
      exact h.2.1 (by simp [hchars])
    simp [isAbsolutePath, hchars, hc]

/-- The names of a proper place are read from its text. -/
theorem pathNames_pathText {path : Path} (hproper : path.Proper) (hne : path ≠ []) :
    pathNames (pathText path) = path := by
  -- the slash in front separates nothing
  have hslash : pathNames (pathText path) = namesFrom [] ("/".intercalate path).toList := by
    rw [pathNames, pathText, String.toList_append]
    rfl
  rw [hslash, String.toList_intercalate]
  clear hslash
  induction path with
  | nil => exact absurd rfl hne
  | cons name path ih =>
    have hname := hproper name List.mem_cons_self
    have hpath : Path.Proper path := fun name hmem => hproper name (List.mem_cons_of_mem _ hmem)
    cases path with
    | nil => simpa using namesFrom_name hname
    | cons next path =>
      rw [List.map_cons, List.map_cons, List.intercalate_cons_cons, ← List.map_cons]
      have h := namesFrom_name_slash hname
        ("/".toList.intercalate ((next :: path).map String.toList))
      rw [ih hpath (by simp)] at h
      simpa using h

/-! ### Walking -/

namespace FileTree

variable {tree : FileTree}

/-- Walking by a name, or by dots, leads from proper places to proper places. -/
theorem proper_of_walk {path place : Path} {name : String} (hpath : path.Proper)
    (hname : name ≠ "" ∧ '/' ∉ name.toList) (h : tree.walk path name = .ok place) :
    place.Proper := by
  rw [walk] at h
  split at h
  · simp at h
  split at h
  · rw [← Except.ok.inj h]
    exact hpath
  rename_i hdot
  split at h
  · rw [← Except.ok.inj h]
    exact fun name hmem => hpath name (List.dropLast_subset _ hmem)
  rename_i hdots
  split at h
  · simp at h
  split at h
  · rw [← Except.ok.inj h]
    intro other hmem
    rcases List.mem_append.1 hmem with hmem | hmem
    · exact hpath other hmem
    · rw [List.mem_singleton.1 hmem]
      exact ⟨hname.1, hname.2, hdot, hdots⟩
  · simp at h

/-- A walk by several names starts with the walk by the first. -/
theorem walks_cons {name : String} {names : List String} {path place : Path}
    (h : (name :: names).foldlM tree.walk path = .ok place) :
    ∃ next, tree.walk path name = .ok next ∧ names.foldlM tree.walk next = .ok place := by
  rw [List.foldlM_cons] at h
  cases hwalk : tree.walk path name with
  | error reason =>
    rw [hwalk] at h
    simp [bind, Except.bind] at h
  | ok next =>
    rw [hwalk] at h
    exact ⟨next, rfl, h⟩

theorem walks_cons_of_ok {name : String} {names : List String} {path next : Path}
    (h : tree.walk path name = .ok next) :
    (name :: names).foldlM tree.walk path = names.foldlM tree.walk next := by
  rw [List.foldlM_cons, h]
  rfl

/-- What every step of a walk keeps is kept by the walk. -/
theorem holds_of_walks {P : Path → Prop} {names : List String} {path place : Path} (hpath : P path)
    (hstep : ∀ name ∈ names, ∀ {path place}, P path → tree.walk path name = .ok place → P place)
    (h : names.foldlM tree.walk path = .ok place) : P place := by
  induction names generalizing path with
  | nil =>
    rw [List.foldlM_nil] at h
    rw [← Except.ok.inj h]
    exact hpath
  | cons name names ih =>
    obtain ⟨next, hwalk, hwalks⟩ := walks_cons h
    exact ih (hstep name List.mem_cons_self hpath hwalk)
      (fun name hmem => hstep name (List.mem_cons_of_mem _ hmem)) hwalks

/-- A path that names something is walked, name by name, from where it starts. -/
theorem walks_of_resolve {current place : Path} {text : String}
    (h : tree.resolve current text = .ok place) :
    (pathNames text).foldlM tree.walk (if isAbsolutePath text then [] else current) =
      .ok place := by
  rw [resolve] at h
  split at h
  · simp at h
  split at h
  · simp at h
  split at h
  · simp at h
  exact h

/-- What a text of a length that can be walked names is found by walking. -/
theorem resolve_of_walks {current place : Path} {text : String} (hnul : '\x00' ∉ text.toList)
    (hne : text ≠ "") (hlength : (encodeText text).length ≤ maxPathLength)
    (h : (pathNames text).foldlM tree.walk (if isAbsolutePath text then [] else current) =
      .ok place) : tree.resolve current text = .ok place := by
  rw [resolve, if_neg (by simpa using hnul), if_neg hne, if_neg (Nat.not_lt.2 hlength), h]

theorem nul_notMem_of_resolve {current place : Path} {text : String}
    (h : tree.resolve current text = .ok place) : '\x00' ∉ text.toList := by
  rw [resolve] at h
  split at h
  · simp at h
  · rename_i hnul
    simpa using hnul

theorem ne_empty_of_resolve {current place : Path} {text : String}
    (h : tree.resolve current text = .ok place) : text ≠ "" := by
  rintro rfl
  simp [resolve] at h

/-- What a written path names is proper. -/
theorem proper_of_resolve {current place : Path} {text : String} (hcurrent : current.Proper)
    (h : tree.resolve current text = .ok place) : place.Proper := by
  have hnames := @name_of_mem_namesFrom [] text.toList (by simp)
  refine holds_of_walks ?_ (fun name hmem {_ _} hpath => proper_of_walk hpath (hnames name hmem))
    (walks_of_resolve h)
  split
  · simp [Path.Proper]
  · exact hcurrent

/-- Walking by a name leads to the place of that name, if it leads anywhere. -/
theorem eq_of_walk {name : String} {path place : Path} (hname : IsName name)
    (h : tree.walk path name = .ok place) : place = path ++ [name] := by
  rw [walk, if_neg hname.2.2.1, if_neg hname.2.2.2] at h
  split at h
  · simp at h
  split at h
  · simp at h
  split at h
  · exact (Except.ok.inj h).symm
  · simp at h

theorem eq_of_walks {names : List String} {path place : Path} (hnames : Path.Proper names)
    (h : names.foldlM tree.walk path = .ok place) : place = path ++ names := by
  induction names generalizing path with
  | nil =>
    rw [List.foldlM_nil] at h
    rw [← Except.ok.inj h, List.append_nil]
  | cons name names ih =>
    obtain ⟨next, hwalk, hwalks⟩ := walks_cons h
    have hnext := eq_of_walk (hnames name List.mem_cons_self) hwalk
    rw [ih (fun name hmem => hnames name (List.mem_cons_of_mem _ hmem)) hwalks, hnext,
      List.append_assoc, List.singleton_append]

theorem isAbsolutePath_pathText (path : Path) : isAbsolutePath (pathText path) = true := by
  rw [isAbsolutePath, pathText, String.toList_append]
  rfl

theorem pathText_ne_empty (path : Path) : pathText path ≠ "" := by
  simp [pathText]

/-- The text of a place starts at the root, so it does not matter where it is read. -/
theorem resolve_pathText (current current' path : Path) :
    tree.resolve current (pathText path) = tree.resolve current' (pathText path) := by
  rw [resolve, resolve, isAbsolutePath_pathText, if_pos rfl, if_pos rfl]

/-- **The text of a proper place names that place**, if it names anything. -/
theorem eq_of_resolve_pathText {current path place : Path} (hpath : path.Proper)
    (h : tree.resolve current (pathText path) = .ok place) : place = path := by
  replace h := walks_of_resolve h
  rw [if_pos (isAbsolutePath_pathText path)] at h
  cases path with
  | nil =>
    have hroot : pathNames (pathText []) = ["."] := by decide
    rw [hroot] at h
    obtain ⟨next, hwalk, hnext⟩ := walks_cons h
    rw [List.foldlM_nil] at hnext
    rw [← Except.ok.inj hnext]
    rw [walk, if_pos rfl] at hwalk
    split at hwalk
    · simp at hwalk
    · exact (Except.ok.inj hwalk).symm
  -- behind the root, each name is walked by as it stands in the place
  | cons name path =>
    rw [pathNames_pathText hpath (by simp)] at h
    exact eq_of_walks hpath h

end FileTree

/-! ### The working directory -/

namespace WorkingDirectory

/-- The current directory is a proper place. -/
def Proper (directory : WorkingDirectory) : Prop := directory.current.Proper

instance (directory : WorkingDirectory) : Decidable directory.Proper :=
  inferInstanceAs (Decidable directory.current.Proper)

theorem change_eq_ok {directory changed : WorkingDirectory} {path : String}
    (h : directory.change path = .ok changed) :
    directory.tree.resolve directory.current path = .ok changed.current ∧
      directory.tree.file? changed.current = none ∧ changed.tree = directory.tree := by
  rw [change, FileTree.resolveDirectory] at h
  cases hplace : directory.tree.resolve directory.current path with
  | error reason =>
    rw [hplace] at h
    simp [bind, Except.bind, Except.map] at h
  | ok place =>
    rw [hplace] at h
    simp only [bind, Except.bind] at h
    split at h
    · simp [Except.map] at h
    · rename_i hfile
      simp only [Except.map, Except.ok.injEq] at h
      subst h
      exact ⟨rfl, by simpa using hfile, rfl⟩

/-- Going somewhere leads to a proper place. -/
theorem proper_of_change {directory changed : WorkingDirectory} {path : String}
    (hproper : directory.Proper) (h : directory.change path = .ok changed) : changed.Proper :=
  FileTree.proper_of_resolve hproper (change_eq_ok h).1

/-- **Going to the text of a proper place leads there**, wherever one comes from. -/
theorem current_of_change {directory changed : WorkingDirectory} {path : Path}
    (hpath : path.Proper) (h : directory.change (pathText path) = .ok changed) :
    changed.current = path :=
  FileTree.eq_of_resolve_pathText hpath (change_eq_ok h).1

/-- Whether one can go to the text of a place depends on the tree alone. -/
theorem change_pathText_isOk {directory directory' : WorkingDirectory} {path : Path}
    (htree : directory'.tree = directory.tree) (h : (directory.change (pathText path)).isOk) :
    (directory'.change (pathText path)).isOk := by
  rw [change, FileTree.resolveDirectory] at h ⊢
  rw [htree, FileTree.resolve_pathText directory'.current directory.current]
  cases hplace : directory.tree.resolve directory.current (pathText path) with
  | error reason =>
    rw [hplace] at h
    exact h
  | ok place =>
    rw [hplace] at h
    simp only [bind, Except.bind] at h ⊢
    split
    · rename_i hfile
      rw [if_pos hfile] at h
      exact h
    · rfl

/-- What entering a guard does: it remembers the current directory, and goes somewhere or stays. -/
theorem enter_eq_ok {directory changed : WorkingDirectory} {target : Option String}
    {former : Path} (h : directory.enter target = .ok (former, changed)) :
    former = directory.current ∧
      (changed = directory ∨ ∃ path, directory.change path = .ok changed) := by
  rw [enter, here?] at h
  split at h
  · simp at h
  rename_i here hhere
  split at hhere
  · rw [← Option.some.inj hhere] at h
    split at h
    · obtain ⟨hformer, hchanged⟩ := Prod.mk.inj (Except.ok.inj h)
      exact ⟨hformer.symm, Or.inl hchanged.symm⟩
    · rename_i path
      split at h
      · rename_i hchange
        obtain ⟨hformer, hchanged⟩ := Prod.mk.inj (Except.ok.inj h)
        exact ⟨hformer.symm, Or.inr ⟨path, hchanged ▸ hchange⟩⟩
      · simp at h
  · simp at hhere

theorem here?_of_enter {directory changed : WorkingDirectory} {target : Option String}
    {former : Path} (h : directory.enter target = .ok (former, changed)) :
    directory.here? = some former := by
  rw [enter] at h
  split at h
  · simp at h
  rename_i here hhere
  split at h
  · rw [hhere, (Prod.mk.inj (Except.ok.inj h)).1]
  · split at h
    · rw [hhere, (Prod.mk.inj (Except.ok.inj h)).1]
    · simp at h

/-- A guard that cannot be entered names its target, unless the current directory is gone. -/
theorem target_of_enter {directory : WorkingDirectory} {target : Option String}
    {error : EnterError} (h : directory.enter target = .error error)
    (hhere : directory.here?.isSome) : target = some error.path := by
  rw [enter] at h
  split at h
  · rename_i hgone
    simp [hgone] at hhere
  · split at h
    · simp at h
    · split at h
      · simp at h
      · rw [← Except.error.inj h]

/-- What leaving a guard does: it goes somewhere or stays. -/
theorem leave_or (directory : WorkingDirectory) (former : Path) :
    directory.leave former = directory ∨
      ∃ path, directory.change path = .ok (directory.leave former) := by
  rw [leave]
  split
  · exact Or.inl rfl
  · split
    · rename_i hchange
      exact Or.inr ⟨_, hchange⟩
    · exact Or.inl rfl

/-- Taking a directory away does not lead anywhere. -/
theorem current_remove (directory : WorkingDirectory) (path : String) :
    (directory.remove path).2.current = directory.current := by
  rw [remove]
  split
  · split
    · rfl
    · rfl
  · rfl

theorem tree_leave (directory : WorkingDirectory) (former : Path) :
    (directory.leave former).tree = directory.tree := by
  rcases directory.leave_or former with h | ⟨path, h⟩
  · rw [h]
  · exact (change_eq_ok h).2.2

theorem proper_leave {directory : WorkingDirectory} (hproper : directory.Proper)
    (former : Path) : (directory.leave former).Proper := by
  rcases directory.leave_or former with h | ⟨path, h⟩
  · rw [h]
    exact hproper
  · exact proper_of_change hproper h

/-- **A guard that is left goes back to the directory it remembers**, if one can go there. -/
theorem current_leave {directory : WorkingDirectory} {former : Path} (hformer : former.Proper)
    (h : (directory.change (pathText former)).isOk) :
    (directory.leave former).current = former := by
  rw [leave]
  split
  · rename_i hhere
    rw [here?] at hhere
    split at hhere
    · exact Option.some.inj hhere
    · simp at hhere
  · split
    · rename_i hchange
      exact current_of_change hformer hchange
    · rename_i hchange
      rw [hchange] at h
      simp [Except.isOk, Except.toBool] at h

end WorkingDirectory

end TaskEngine
