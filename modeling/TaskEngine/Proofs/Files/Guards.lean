import TaskEngine.Proofs.Files.Trees
import Mathlib.Logic.Function.Basic

/-!
# Guards of the working directory

A guard remembers the directory that is current when it is entered.  Guards may be dropped in any
order, entering may fail, and in between the process goes where it likes; relative paths are read
where it happens to be then.  What a guard remembers does not depend on any of this, and dropping
leads back there from anywhere.

That much is true as long as there is something to go back to.  The tree is shared, so others may
alter it at any time; the directories that are current or remembered have to be left.  And the way
back is the text of the directory as a whole.  If the system does not walk texts of its length, the
process stays where it is.

## Main definitions

* `DirectoryUse` — what can be done with the working directory, and by others with the tree.
* `GuardedDirectory` — a working directory with the guards that are held.
* `GuardedDirectory.Involves`, `GuardedDirectory.Stands` — the directories involved, and that they
  exist.
* `GuardedDirectory.EntersShort` — guards are entered where the text of the directory is short.
* `GuardedDirectory.WellNested` — guards are dropped in the reverse order of their entries.

## Main results

* `GuardedDirectory.Stands.after` — going anywhere leads to directories that exist.
* `GuardedDirectory.dropping_restores` — **a guard that is dropped leads back to where it was
  entered, if the text of the directory is short.**
-/

namespace TaskEngine

/-! ### Guards that are held -/

/-- What is done with the working directory.  A guard has the number of the attempt to enter it. -/
inductive DirectoryUse
  /-- A guard is entered, perhaps with a directory to go to. -/
  | entering (target : Option String)
  /-- The process goes to another directory. -/
  | changing (path : String)
  /-- A guard is dropped; nothing happens if it is not held. -/
  | dropping (guard : Nat)
  /-- Others alter the tree. -/
  | altering (tree : FileTree)

/-- A working directory, with the guards that are held. -/
structure GuardedDirectory where
  /-- The tree and the current directory. -/
  directory : WorkingDirectory
  /-- What the guards remember that are held. -/
  guards : Nat → Option Path
  /-- How many times a guard was to be entered. -/
  entries : Nat
  /-- There are no guards that were not entered. -/
  fresh : ∀ guard, entries ≤ guard → guards guard = none

namespace GuardedDirectory

/-- No guard is held. -/
def start (directory : WorkingDirectory) : GuardedDirectory :=
  ⟨directory, fun _ => none, 0, by simp⟩

/-- The next guard remembers a directory, or it could not be entered. -/
def hold (s : GuardedDirectory) (former : Option Path) (directory : WorkingDirectory) :
    GuardedDirectory where
  directory := directory
  guards := Function.update s.guards s.entries former
  entries := s.entries + 1
  fresh guard h := by
    rw [Function.update_of_ne (by omega)]
    exact s.fresh guard (by omega)

/-- A guard is held no more. -/
def release (s : GuardedDirectory) (guard : Nat) (directory : WorkingDirectory) :
    GuardedDirectory where
  directory := directory
  guards := Function.update s.guards guard none
  entries := s.entries
  fresh other h := by
    by_cases hother : other = guard
    · simp [hother]
    · rw [Function.update_of_ne hother]
      exact s.fresh other h

/-- Uses the working directory once.  If it cannot be entered or changed, it stays as it is. -/
def use (s : GuardedDirectory) : DirectoryUse → GuardedDirectory
  | .entering target =>
    match s.directory.enter target with
    | .ok (former, directory) => s.hold (some former) directory
    | .error _ => s.hold none s.directory
  | .changing path =>
    match s.directory.change path with
    | .ok directory => { s with directory }
    | .error _ => s
  | .dropping guard =>
    match s.guards guard with
    | some former => s.release guard (s.directory.leave former)
    | none => s
  | .altering tree => { s with directory := { s.directory with tree } }

/-- What the working directory has come to after some uses. -/
def after (s : GuardedDirectory) (uses : List DirectoryUse) : GuardedDirectory := uses.foldl use s

/-- Where the process is. -/
def current (s : GuardedDirectory) : Path := s.directory.current

@[simp] theorem after_nil (s : GuardedDirectory) : s.after [] = s := rfl

@[simp] theorem after_cons (s : GuardedDirectory) (use : DirectoryUse) (uses : List DirectoryUse) :
    s.after (use :: uses) = (s.use use).after uses := rfl

@[simp] theorem after_append (s : GuardedDirectory) (uses uses' : List DirectoryUse) :
    s.after (uses ++ uses') = (s.after uses).after uses' := List.foldl_append

variable {s : GuardedDirectory}

theorem use_entering {target : Option String} {former : Path} {directory : WorkingDirectory}
    (h : s.directory.enter target = .ok (former, directory)) :
    s.use (.entering target) = s.hold (some former) directory := by
  simp only [use, h]

theorem use_entering_of_error {target : Option String} {error : WorkingDirectory.EnterError}
    (h : s.directory.enter target = .error error) :
    s.use (.entering target) = s.hold none s.directory := by
  simp only [use, h]

theorem use_dropping {guard : Nat} {former : Path} (h : s.guards guard = some former) :
    s.use (.dropping guard) = s.release guard (s.directory.leave former) := by
  simp only [use, h]

theorem use_dropping_of_none {guard : Nat} (h : s.guards guard = none) :
    s.use (.dropping guard) = s := by
  simp only [use, h]

/-! ### What a guard remembers -/

theorem entries_use_entering (s : GuardedDirectory) (target : Option String) :
    (s.use (.entering target)).entries = s.entries + 1 := by
  simp only [use]
  split
  · rfl
  · rfl

theorem entries_use_dropping (s : GuardedDirectory) (guard : Nat) :
    (s.use (.dropping guard)).entries = s.entries := by
  simp only [use]
  split
  · rfl
  · rfl

theorem entries_le_use (s : GuardedDirectory) (use : DirectoryUse) :
    s.entries ≤ (s.use use).entries := by
  cases use with
  | entering target =>
    rw [entries_use_entering]
    omega
  | changing path =>
    simp only [GuardedDirectory.use]
    split
    · exact Nat.le_refl _
    · exact Nat.le_refl _
  | dropping guard => exact Nat.le_of_eq (entries_use_dropping s guard).symm
  | altering tree => exact Nat.le_refl _

/-- What a guard remembers is changed by dropping it, and by nothing else. -/
theorem guards_use {guard : Nat} (hentered : guard < s.entries) {use : DirectoryUse}
    (hdropped : use ≠ .dropping guard) : (s.use use).guards guard = s.guards guard := by
  cases use with
  | entering target =>
    have hne : guard ≠ s.entries := by omega
    simp only [GuardedDirectory.use]
    split
    · exact Function.update_of_ne hne _ _
    · exact Function.update_of_ne hne _ _
  | changing path =>
    simp only [GuardedDirectory.use]
    split
    · rfl
    · rfl
  | dropping other =>
    have hne : guard ≠ other := by
      rintro rfl
      exact hdropped rfl
    simp only [GuardedDirectory.use]
    split
    · exact Function.update_of_ne hne _ _
    · rfl
  | altering tree => rfl

theorem guards_after {guard : Nat} (hentered : guard < s.entries) {uses : List DirectoryUse}
    (hdropped : .dropping guard ∉ uses) : (s.after uses).guards guard = s.guards guard := by
  induction uses generalizing s with
  | nil => rfl
  | cons use uses ih =>
    rw [List.mem_cons, not_or] at hdropped
    have hstill : guard < (s.use use).entries :=
      Nat.lt_of_lt_of_le hentered (s.entries_le_use use)
    rw [after_cons, ih hstill hdropped.2, guards_use hentered (Ne.symm hdropped.1)]

/-! ### Directories that exist -/

/-- A directory is involved if the process is there, or if a guard remembers it. -/
def Involves (s : GuardedDirectory) (path : Path) : Prop :=
  path = s.current ∨ ∃ guard, s.guards guard = some path

/-- The directories that are involved exist. -/
structure Stands (s : GuardedDirectory) : Prop where
  /-- The tree is sound. -/
  sound : s.directory.tree.Sound
  /-- The directories are there. -/
  exist : ∀ path, s.Involves path → s.directory.tree.isDirectory path = true
  /-- The system takes their names. -/
  named : ∀ path, s.Involves path → path.Named

/-- Whenever others alter the tree, they leave the directories that are involved. -/
def Lasts : GuardedDirectory → List DirectoryUse → Prop
  | _, [] => True
  | s, use :: uses =>
    (∀ tree, use = .altering tree →
      tree.Sound ∧ ∀ path, s.Involves path → tree.isDirectory path = true) ∧
    (s.use use).Lasts uses

/-- Guards are entered in directories whose texts are short. -/
def EntersShort : GuardedDirectory → List DirectoryUse → Prop
  | _, [] => True
  | s, use :: uses =>
    (∀ target, use = .entering target → s.current.Short) ∧ (s.use use).EntersShort uses

theorem Lasts.of_append {uses uses' : List DirectoryUse} (h : s.Lasts (uses ++ uses')) :
    s.Lasts uses := by
  induction uses generalizing s with
  | nil => trivial
  | cons use uses ih => exact ⟨h.1, ih h.2⟩

theorem entersShort_append {uses uses' : List DirectoryUse} :
    s.EntersShort (uses ++ uses') ↔ s.EntersShort uses ∧ (s.after uses).EntersShort uses' := by
  induction uses generalizing s with
  | nil => simp [EntersShort]
  | cons use uses ih =>
    simp only [List.cons_append, EntersShort, after_cons]
    rw [ih, and_assoc]

theorem eq_of_update {guards : Nat → Option Path} {guard other : Nat} {former : Option Path}
    {path : Path} (h : Function.update guards guard former other = some path) :
    former = some path ∨ guards other = some path := by
  by_cases heq : other = guard
  · subst heq
    rw [Function.update_self] at h
    exact .inl h
  · rw [Function.update_of_ne heq] at h
    exact .inr h

/-- A guard may come to remember a directory, or nothing any more. -/
theorem Involves.of_update {s' : GuardedDirectory} {guard : Nat} {former : Option Path}
    {path : Path} (h : s'.Involves path)
    (hguards : s'.guards = Function.update s.guards guard former) :
    path = s'.current ∨ former = some path ∨ s.Involves path := by
  rcases h with hpath | ⟨other, hother⟩
  · exact .inl hpath
  · rw [hguards] at hother
    exact .inr ((eq_of_update hother).imp_right fun hpath => .inr ⟨other, hpath⟩)

/-- **No directory comes to be involved** but by going there. -/
theorem involves_use {use : DirectoryUse} {path : Path} (h : (s.use use).Involves path) :
    s.Involves path ∨
      ∃ text changed, s.directory.change text = .ok changed ∧ changed.current = path := by
  have hcurrent : s.Involves s.current := .inl rfl
  cases use with
  | entering target =>
    cases henter : s.directory.enter target with
    | error error =>
      rw [use_entering_of_error henter] at h
      rcases h.of_update rfl with rfl | hnone | hpath
      · exact .inl hcurrent
      · exact absurd hnone.symm (Option.some_ne_none _)
      · exact .inl hpath
    | ok entered =>
      obtain ⟨former, directory⟩ := entered
      obtain ⟨rfl, hchanged⟩ := WorkingDirectory.enter_eq_ok henter
      rw [use_entering henter] at h
      rcases h.of_update rfl with rfl | hformer | hpath
      · rcases hchanged with rfl | ⟨text, hchange⟩
        · exact .inl hcurrent
        · exact .inr ⟨text, directory, hchange, rfl⟩
      · exact .inl (Option.some.inj hformer ▸ hcurrent)
      · exact .inl hpath
  | changing text =>
    simp only [GuardedDirectory.use] at h
    split at h
    · rename_i changed hchange
      rcases h with rfl | hguard
      · exact .inr ⟨text, changed, hchange, rfl⟩
      · exact .inl (.inr hguard)
    · exact .inl h
  | dropping guard =>
    cases hguard : s.guards guard with
    | none =>
      rw [use_dropping_of_none hguard] at h
      exact .inl h
    | some former =>
      rw [use_dropping hguard] at h
      rcases h.of_update rfl with rfl | hnone | hpath
      · rcases s.directory.leave_or former with hleave | ⟨text, hchange⟩
        · exact .inl (.inl (congrArg WorkingDirectory.current hleave))
        · exact .inr ⟨text, _, hchange, rfl⟩
      · exact absurd hnone.symm (Option.some_ne_none _)
      · exact .inl hpath
  | altering tree => exact .inl h

/-- The tree is altered by others alone. -/
theorem tree_use {use : DirectoryUse} (h : ∀ tree, use ≠ .altering tree) :
    (s.use use).directory.tree = s.directory.tree := by
  cases use with
  | entering target =>
    cases henter : s.directory.enter target with
    | error error => rw [use_entering_of_error henter, hold]
    | ok entered =>
      obtain ⟨former, directory⟩ := entered
      rw [use_entering henter, hold]
      rcases (WorkingDirectory.enter_eq_ok henter).2 with rfl | ⟨text, hchange⟩
      · rfl
      · exact (WorkingDirectory.change_eq_ok hchange).2.2
  | changing text =>
    simp only [GuardedDirectory.use]
    split
    · rename_i hchange
      exact (WorkingDirectory.change_eq_ok hchange).2.2
    · rfl
  | dropping guard =>
    cases hguard : s.guards guard with
    | none => rw [use_dropping_of_none hguard]
    | some former =>
      rw [use_dropping hguard, release]
      exact s.directory.tree_leave former
  | altering tree => exact absurd rfl (h tree)

theorem stands_start {directory : WorkingDirectory} (hsound : directory.tree.Sound)
    (hhere : directory.tree.isDirectory directory.current = true)
    (hnamed : directory.current.Named) : (start directory).Stands := by
  have hinvolved : ∀ path, (start directory).Involves path → path = directory.current := by
    rintro path (hpath | ⟨guard, hguard⟩)
    · exact hpath
    · simp [start] at hguard
  refine ⟨hsound, fun path hpath => ?_, fun path hpath => ?_⟩
  · rw [hinvolved path hpath]
    exact hhere
  · rw [hinvolved path hpath]
    exact hnamed

theorem Stands.here?_eq (h : s.Stands) : s.directory.here? = some s.current := by
  unfold WorkingDirectory.here?
  exact if_pos (h.exist s.current (.inl rfl))

/-- **From one use to the next**, the directories involved exist, as long as others leave them. -/
theorem Stands.use (h : s.Stands) {use : DirectoryUse}
    (hleft : ∀ tree, use = .altering tree →
      tree.Sound ∧ ∀ path, s.Involves path → tree.isDirectory path = true) :
    (s.use use).Stands := by
  have hnamed : ∀ path, (s.use use).Involves path → path.Named := by
    intro path hpath
    rcases involves_use hpath with hpath | ⟨text, changed, hchange, rfl⟩
    · exact h.named path hpath
    · exact WorkingDirectory.named_of_change (h.named s.current (.inl rfl)) hchange
  by_cases halter : ∃ tree, use = .altering tree
  · obtain ⟨tree, rfl⟩ := halter
    obtain ⟨hsound, hexist⟩ := hleft tree rfl
    exact ⟨hsound, hexist, hnamed⟩
  · have htree := s.tree_use (not_exists.1 halter)
    refine ⟨htree ▸ h.sound, fun path hpath => ?_, hnamed⟩
    rw [htree]
    rcases involves_use hpath with hpath | ⟨text, changed, hchange, rfl⟩
    · exact h.exist path hpath
    · exact WorkingDirectory.isDirectory_of_change h.sound (h.exist s.current (.inl rfl)) hchange

/-- **Going anywhere leads to directories that exist.** -/
theorem Stands.after (h : s.Stands) {uses : List DirectoryUse} (hlasts : s.Lasts uses) :
    (s.after uses).Stands := by
  induction uses generalizing s with
  | nil => exact h
  | cons use uses ih => exact ih (h.use hlasts.1) hlasts.2

/-! ### Dropping -/

/-- Dropping a guard that is held leads to the directory it remembers, if its text is short. -/
theorem Stands.current_dropping (h : s.Stands) {guard : Nat} {former : Path}
    (hguard : s.guards guard = some former) (hshort : former.Short) :
    (s.use (.dropping guard)).current = former := by
  have hinvolved : s.Involves former := .inr ⟨guard, hguard⟩
  rw [use_dropping hguard, WorkingDirectory.leave_of_short h.sound (h.exist former hinvolved)
    (h.named former hinvolved) hshort]
  rfl

/-- Otherwise the process stays where it is. -/
theorem current_dropping_of_not_short {guard : Nat} {former : Path}
    (hguard : s.guards guard = some former) (hlong : ¬former.Short) :
    (s.use (.dropping guard)).current = s.current := by
  rw [use_dropping hguard, WorkingDirectory.leave_of_not_short hlong]
  rfl

theorem guards_use_entering {target : Option String}
    (h : (s.directory.enter target).isOk = true) :
    (s.use (.entering target)).guards s.entries = some s.current := by
  cases henter : s.directory.enter target with
  | error error =>
    rw [henter] at h
    simp [Except.isOk, Except.toBool] at h
  | ok entered =>
    obtain ⟨former, directory⟩ := entered
    rw [use_entering henter, (WorkingDirectory.enter_eq_ok henter).1]
    exact Function.update_self _ _ _

/-- Guards are dropped in the reverse order of their entries: what is done between an entry and its
drop, and behind the drop, is well nested again.  The numbers are those of the next guard before and
after. -/
inductive WellNested : Nat → List DirectoryUse → Nat → Prop
  | nil (next : Nat) : WellNested next [] next
  | nest {next next' last : Nat} (target : Option String) {inside behind : List DirectoryUse}
    (hinside : WellNested (next + 1) inside next') (hbehind : WellNested next' behind last) :
    WellNested next (.entering target :: inside ++ .dropping next :: behind) last

theorem WellNested.le {next last : Nat} {uses : List DirectoryUse}
    (h : WellNested next uses last) : next ≤ last := by
  induction h with
  | nil => exact Nat.le_refl _
  | nest target _ _ hinside hbehind => omega

/-- Only guards that were entered in between are dropped. -/
theorem WellNested.le_of_dropping {next last guard : Nat} {uses : List DirectoryUse}
    (h : WellNested next uses last) (hdropped : .dropping guard ∈ uses) : next ≤ guard := by
  induction h with
  | nil => simp at hdropped
  | nest target hin _ hinside hbehind =>
    have hle := hin.le
    simp only [List.cons_append, List.mem_cons, List.mem_append, reduceCtorEq, false_or,
      DirectoryUse.dropping.injEq] at hdropped
    rcases hdropped with hmem | rfl | hmem
    · have := hinside hmem
      omega
    · exact Nat.le_refl _
    · have := hbehind hmem
      omega

/-- **Well-nested guards lead back to the start**, even if some of them cannot be entered. -/
theorem WellNested.current_after {next last : Nat} {uses : List DirectoryUse}
    (h : WellNested next uses last) {s : GuardedDirectory} (hs : s.Stands)
    (hshort : s.EntersShort uses) (hnext : s.entries = next) :
    (s.after uses).current = s.current ∧ (s.after uses).Stands ∧
      (s.after uses).entries = last := by
  induction h generalizing s with
  | nil => exact ⟨rfl, hs, hnext⟩
  | @nest next next' last target inside behind hin _ ihinside ihbehind =>
    subst hnext
    rw [List.cons_append, EntersShort, entersShort_append, EntersShort] at hshort
    obtain ⟨hhere, hinside, -, hbehind⟩ := hshort
    have hentered : (s.use (.entering target)).Stands := hs.use (by simp)
    obtain ⟨hcurrent, hstands, hentries⟩ :=
      ihinside hentered hinside (entries_use_entering s target)
    have hdropped : (.dropping s.entries : DirectoryUse) ∉ inside := by
      intro hmem
      have := hin.le_of_dropping hmem
      omega
    have hguard : ((s.use (.entering target)).after inside).guards s.entries =
        (s.use (.entering target)).guards s.entries := by
      apply guards_after ?_ hdropped
      rw [entries_use_entering]
      omega
    generalize hinner : (s.use (.entering target)).after inside = inner at *
    -- whether or not the guard could be entered, the process is back behind its drop
    have hback : (inner.use (.dropping s.entries)).current = s.current := by
      cases henter : s.directory.enter target with
      | ok entered =>
        have hok : (s.directory.enter target).isOk = true := by
          rw [henter]
          rfl
        exact hstands.current_dropping (hguard.trans (guards_use_entering hok)) (hhere target rfl)
      | error error =>
        rw [use_entering_of_error henter] at hguard hcurrent
        have hnone : inner.guards s.entries = none := hguard.trans (by simp [hold])
        rw [use_dropping_of_none hnone, hcurrent]
        rfl
    have hentries' : (inner.use (.dropping s.entries)).entries = next' := by
      rw [entries_use_dropping, hentries]
    obtain ⟨hcurrent', hstands', hlast⟩ := ihbehind (hstands.use (by simp)) hbehind hentries'
    rw [List.cons_append, after_cons, after_append, hinner, after_cons]
    exact ⟨hcurrent'.trans hback, hstands', hlast⟩

/-- A guard that is entered in a directory with a long text and dropped leads nowhere. -/
theorem current_after_of_not_short {directory changed : WorkingDirectory} {target : Option String}
    (henter : directory.enter target = .ok (directory.current, changed))
    (hlong : ¬directory.current.Short) :
    ((start directory).after [.entering target, .dropping 0]).current = changed.current := by
  have hentered : (start directory).use (.entering target) =
      (start directory).hold (some directory.current) changed := use_entering henter
  have hheld : ((start directory).use (.entering target)).guards 0 = some directory.current := by
    rw [hentered]
    simp [hold, start]
  rw [after_cons, after_cons, after_nil, current_dropping_of_not_short hheld hlong, hentered]
  rfl

end GuardedDirectory

end TaskEngine
