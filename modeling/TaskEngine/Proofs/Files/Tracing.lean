import TaskEngine.Proofs.Files.Trees

/-!
# Tracing paths

A path is read from where it starts, name by name, and is bound in its own length only.  To tell
where it leads, all places on its way are looked at from the root.  That takes a start which can be
told from the root, and places whose texts are short.  So two paths may name one place although it
can be told of only one of them where it leads.

## Main definitions

* `FileTree.ShortWay` — the texts of the places on the way are short.
* `WorkingDirectory.Traces` — it can be told where a path leads.

## Main results

* `FileTree.trace_eq_ok_iff` — **tracing is walking, on short ways.**
* `WorkingDirectory.locate_eq_ok_iff` — where a path leads.
* `WorkingDirectory.not_traces_of_gone`, `WorkingDirectory.not_traces_detour` — paths that are read
  but not traced.
-/

namespace TaskEngine

/-! ### Tracing -/

namespace FileTree

variable {tree : FileTree} {path place : Path} {name : String} {names : List String}

/-- The texts of all places below that are named on the way are short enough to be walked, with a
slash behind them where a directory is asked for. -/
def ShortWay (tree : FileTree) (path : Path) (names : List String) : Prop :=
  ∀ front name back place, names = front ++ name :: back → leadsBelow name = true →
    (front ++ [name]).foldlM tree.walk path = .ok place →
      place.textLength + (asksDirectory back).toNat ≤ maxPathLength

theorem shortWay_nil (tree : FileTree) (path : Path) : tree.ShortWay path [] := by
  intro front name back _ hsplit
  simp at hsplit

theorem shortWay_cons {next : Path} (h : tree.walk path name = .ok next) :
    tree.ShortWay path (name :: names) ↔
      (leadsBelow name = true →
        next.textLength + (asksDirectory names).toNat ≤ maxPathLength) ∧
      tree.ShortWay next names := by
  constructor
  · intro hshort
    refine ⟨fun hbelow => hshort [] name names next rfl hbelow ?_, ?_⟩
    · rw [List.nil_append, walks_cons_of_ok h, List.foldlM_nil]
      rfl
    · rintro front other back place rfl hbelow hplace
      refine hshort (name :: front) other back place rfl hbelow ?_
      rwa [List.cons_append, walks_cons_of_ok h]
  · rintro ⟨hnext, hshort⟩ front other back place hsplit hbelow hplace
    cases front with
    | nil =>
      obtain ⟨rfl, rfl⟩ := List.cons_eq_cons.1 hsplit
      rw [List.nil_append, walks_cons_of_ok h, List.foldlM_nil] at hplace
      rw [← Except.ok.inj hplace]
      exact hnext hbelow
    | cons first front =>
      obtain ⟨rfl, rfl⟩ := List.cons_eq_cons.1 hsplit
      rw [List.cons_append, walks_cons_of_ok h] at hplace
      exact hshort front other back place rfl hbelow hplace

/-- **Tracing is walking, on short ways.** -/
theorem trace_eq_ok_iff : tree.trace path names = .ok place ↔
    names.foldlM tree.walk path = .ok place ∧ tree.ShortWay path names := by
  induction names generalizing path with
  | nil => simp [trace, shortWay_nil, pure, Except.pure]
  | cons name names ih =>
    unfold trace
    cases hwalk : tree.walk path name with
    | error reason => simp [List.foldlM_cons, hwalk, bind, Except.bind]
    | ok next =>
      rw [walks_cons_of_ok hwalk, shortWay_cons hwalk]
      dsimp only
      split
      · rename_i hlong
        rw [Bool.and_eq_true, decide_eq_true_eq] at hlong
        have hnot : ¬(leadsBelow name = true →
            next.textLength + (asksDirectory names).toNat ≤ maxPathLength) :=
          fun hshort => absurd (hshort hlong.1) (Nat.not_le.2 hlong.2)
        simp [hnot]
      · rename_i hshort
        rw [Bool.and_eq_true, decide_eq_true_eq, not_and, Nat.not_lt] at hshort
        rw [ih, and_iff_right hshort]

end FileTree

/-! ### Where a path leads -/

namespace WorkingDirectory

variable {directory : WorkingDirectory} {path : String} {place : Path}

/-- It can be told where a path leads: it starts at the root or in a directory that is still there,
and the texts of the places on the way are short. -/
def Traces (directory : WorkingDirectory) (path : String) : Prop :=
  ∃ start, directory.start? path = some start ∧ directory.tree.ShortWay start (pathNames path)

theorem start?_of_relative (h : isAbsolutePath path = false) :
    directory.start? path = directory.here? := by
  unfold start?
  rw [h, if_neg Bool.false_ne_true]

theorem start?_eq_some {start : Path} (h : directory.start? path = some start) :
    start = if isAbsolutePath path then [] else directory.current := by
  unfold start? here? at h
  split at h
  · rename_i habsolute
    rw [if_pos habsolute, ← Option.some.inj h]
  · rename_i hrelative
    split at h
    · rw [if_neg hrelative, ← Option.some.inj h]
    · simp at h

/-- **A path leads to the place it names, if that can be told.** -/
theorem locate_eq_ok_iff {found : Path}
    (h : directory.tree.resolve directory.current path = .ok place) :
    directory.locate path = .ok found ↔ found = place ∧ directory.Traces path := by
  have hnul := FileTree.nul_notMem_of_resolve h
  have hwalks := FileTree.walks_of_resolve h
  unfold locate Traces
  rw [if_neg (by simpa using hnul), if_neg (FileTree.ne_empty_of_resolve h)]
  cases hstart : directory.start? path with
  | none => simp
  | some start =>
    rw [← start?_eq_some hstart] at hwalks
    dsimp only
    rw [FileTree.trace_eq_ok_iff, hwalks]
    simp [eq_comm]

theorem locate_of_not_traces (h : directory.tree.resolve directory.current path = .ok place)
    (hnot : ¬directory.Traces path) : ∃ reason, directory.locate path = .error reason := by
  cases hlocate : directory.locate path with
  | error reason => exact ⟨reason, rfl⟩
  | ok found => exact absurd ((locate_eq_ok_iff h).1 hlocate).2 hnot

/-- While the current directory is gone, it cannot be told where relative paths lead. -/
theorem not_traces_of_gone (hgone : directory.here? = none) (hpath : isAbsolutePath path = false) :
    ¬directory.Traces path := by
  rintro ⟨start, hstart, -⟩
  rw [start?_of_relative hpath, hgone] at hstart
  simp at hstart

/-- Nor can it be told of a path that goes through a directory with a long text. -/
theorem not_traces_detour {name rest : String} (hname : IsName name)
    (hwalk : directory.tree.walk directory.current name = .ok (directory.current ++ [name]))
    (hlong : ¬Path.Short (directory.current ++ [name])) :
    ¬directory.Traces (name ++ "/" ++ rest) := by
  have hbelow : leadsBelow name = true := by
    simp [leadsBelow, hname.2.2.1, hname.2.2.2]
  rintro ⟨start, hstart, hshort⟩
  obtain rfl : start = directory.current := by
    rw [start?_eq_some hstart, isAbsolutePath_name_slash hname, if_neg Bool.false_ne_true]
  rw [pathNames_name_slash hname, FileTree.shortWay_cons hwalk] at hshort
  have hnext := hshort.1 hbelow
  exact hlong (by unfold Path.Short; omega)

end WorkingDirectory

end TaskEngine
