import TaskEngine.Files.PathText
import TaskEngine.Proofs.Text.Trimming

/-!
# Components of written paths

What a path says is the list of its components.  Slashes separate them, and it makes no difference
how many; a single dot says nothing, unless a relative path starts with it.  When a relative path is
taken from a directory, its components follow those of the directory.

A tilde at the front of a path stands for the home directory, and what is behind it is taken from
there.  But an absolute path is taken from nowhere, and what is behind the tilde may be one: a
second slash is enough.  Then nothing is left of the home directory.

## Main definitions

* `pathComponents` — the components of a path.
* `componentsBelow` — what a path adds to the directory it is taken from.
* `BehindTilde` — what is behind the tilde of a text.

## Main results

* `pathParts_append_slash` — a slash separates components.
* `pathComponents_joinPath` — **components of a relative path follow those of its directory.**
* `pathComponents_expandTilde` — so they do behind a tilde.
* `expandTilde_leads_home_iff` — **a tilde leads to the home directory unless the path behind it is
  absolute.**
-/

namespace TaskEngine

/-! ### Components -/

/-- What stands between the slashes of a path.  Where nothing stands or a single dot, nothing is
said. -/
def pathParts (path : List Char) : List (List Char) :=
  (path.splitOn '/').filter fun part => part ≠ [] ∧ part ≠ ['.']

/-- Where a path starts, if it says so: at the root or, with a dot, where it is read. -/
def pathStart : List Char → List (List Char)
  | '/' :: _ => [['/']]
  | ['.'] => [['.']]
  | '.' :: '/' :: _ => [['.']]
  | _ => []

/-- The components of a path. -/
def pathComponents (path : String) : List String :=
  (pathStart path.toList ++ pathParts path.toList).map String.ofList

/-- What a path adds to the directory it is taken from; a dot at its front is that directory. -/
def componentsBelow (path : String) : List String := (pathComponents path).filter (· ≠ ".")

/-- **A slash separates components.**  What else is known of them follows from this. -/
theorem pathParts_append_slash (front rest : List Char) :
    pathParts (front ++ '/' :: rest) = pathParts front ++ pathParts rest := by
  unfold pathParts
  rw [List.splitOn_append_cons_self, List.filter_append]

@[simp] theorem pathParts_nil : pathParts [] = [] := rfl

theorem dot_notMem_pathParts (path : List Char) : ['.'] ∉ pathParts path := by
  simp [pathParts]

/-- Behind its start, no component of a path is a dot. -/
theorem filter_pathParts (path : List Char) :
    ((pathParts path).map String.ofList).filter (· ≠ ".") =
      (pathParts path).map String.ofList := by
  rw [List.filter_eq_self]
  intro name hname
  obtain ⟨part, hpart, rfl⟩ := List.mem_map.1 hname
  rw [decide_eq_true_eq]
  intro hdot
  have hchars : part = ['.'] := by simpa using congrArg String.toList hdot
  exact dot_notMem_pathParts path (hchars ▸ hpart)

theorem isAbsolutePath_iff {path : String} :
    isAbsolutePath path = true ↔ ∃ rest, path.toList = '/' :: rest := by
  unfold isAbsolutePath
  rw [beq_iff_eq, List.head?_eq_some_iff]

theorem ne_empty_of_absolute {path : String} (h : isAbsolutePath path = true) : path ≠ "" := by
  rintro rfl
  exact absurd h (by decide)

/-- The first component of an absolute path is the root. -/
theorem pathStart_of_absolute {path : String} (h : isAbsolutePath path = true) :
    pathStart path.toList = [['/']] := by
  obtain ⟨rest, hrest⟩ := isAbsolutePath_iff.1 h
  rw [hrest]
  rfl

theorem pathComponents_ne_nil {path : String} (h : isAbsolutePath path = true) :
    pathComponents path ≠ [] := by
  simp [pathComponents, pathStart_of_absolute h]

/-- Nothing of an absolute path is left out. -/
theorem componentsBelow_of_absolute {path : String} (h : isAbsolutePath path = true) :
    componentsBelow path = pathComponents path := by
  unfold componentsBelow pathComponents
  rw [pathStart_of_absolute h, List.map_append, List.filter_append, filter_pathParts]
  rfl

/-- Of a relative path, at most a dot at the front is left out. -/
theorem componentsBelow_of_relative {path : String} (h : isAbsolutePath path = false) :
    componentsBelow path = (pathParts path.toList).map String.ofList := by
  have hstart : ((pathStart path.toList).map String.ofList).filter (· ≠ ".") = [] := by
    unfold pathStart
    split
    · rename_i rest hslash
      rw [isAbsolutePath_iff.2 ⟨rest, hslash⟩] at h
      exact absurd h (by decide)
    · rfl
    · rfl
    · rfl
  unfold componentsBelow pathComponents
  rw [List.map_append, List.filter_append, filter_pathParts, hstart, List.nil_append]

/-! ### Paths taken from a directory -/

theorem joinPath_of_absolute {path : String} (h : isAbsolutePath path = true)
    (directory : String) : joinPath directory path = path := by
  unfold joinPath
  rw [if_pos h]

/-- A path taken from a directory: there is one slash between them, that of the directory or one
that is put there. -/
theorem exists_joinPath {directory path : String} (hdirectory : directory ≠ "")
    (hpath : isAbsolutePath path = false) :
    ∃ front, (joinPath directory path).toList = front ++ '/' :: path.toList ∧
      (directory.toList = front ∨ directory.toList = front ++ ['/']) := by
  unfold joinPath
  rw [hpath, if_neg Bool.false_ne_true]
  split
  · rename_i hnone
    exact absurd (by simpa using hnone) hdirectory
  · rename_i hslash
    obtain ⟨front, hfront⟩ := List.getLast?_eq_some_iff.1 hslash
    exact ⟨front, by simp [hfront], .inr hfront⟩
  · exact ⟨directory.toList, by simp, .inl rfl⟩

theorem joinPath_starts {directory path : String} (hdirectory : directory ≠ "")
    (hpath : isAbsolutePath path = false) :
    ∃ back, (joinPath directory path).toList = directory.toList ++ back := by
  obtain ⟨front, hjoined, hfront | hfront⟩ := exists_joinPath hdirectory hpath
  · exact ⟨'/' :: path.toList, by rw [hjoined, hfront]⟩
  · exact ⟨path.toList, by rw [hjoined, hfront, List.append_assoc, List.singleton_append]⟩

/-- A path taken from an absolute directory is absolute. -/
theorem isAbsolutePath_joinPath {directory : String} (hdirectory : isAbsolutePath directory = true)
    (path : String) : isAbsolutePath (joinPath directory path) = true := by
  cases hpath : isAbsolutePath path with
  | true =>
    rw [joinPath_of_absolute hpath]
    exact hpath
  | false =>
    obtain ⟨rest, hrest⟩ := isAbsolutePath_iff.1 hdirectory
    obtain ⟨back, hjoined⟩ := joinPath_starts (ne_empty_of_absolute hdirectory) hpath
    rw [isAbsolutePath_iff, hjoined, hrest]
    exact ⟨_, rfl⟩

/-- **Components of a relative path follow those of its directory.** -/
theorem pathComponents_joinPath {directory path : String}
    (hdirectory : isAbsolutePath directory = true) (hpath : isAbsolutePath path = false) :
    pathComponents (joinPath directory path) =
      pathComponents directory ++ componentsBelow path := by
  have hparts : pathParts (joinPath directory path).toList =
      pathParts directory.toList ++ pathParts path.toList := by
    obtain ⟨front, hjoined, hfront | hfront⟩ :=
      exists_joinPath (ne_empty_of_absolute hdirectory) hpath
    · rw [hjoined, pathParts_append_slash, hfront]
    · rw [hjoined, pathParts_append_slash, hfront, pathParts_append_slash, pathParts_nil,
        List.append_nil]
  rw [componentsBelow_of_relative hpath]
  unfold pathComponents
  rw [pathStart_of_absolute (isAbsolutePath_joinPath hdirectory path),
    pathStart_of_absolute hdirectory, hparts]
  simp

/-! ### Paths with a tilde -/

/-- What is behind the tilde at the front of a text, and behind the slash or backslash that follows
it.  White space around the text does not count. -/
def BehindTilde (text rest : String) : Prop :=
  (trimSpace text = "~" ∧ rest = "") ∨ trimSpace text = "~/" ++ rest ∨
    trimSpace text = "~\\" ++ rest

variable {home text rest : String}

theorem expandTilde_alone (h : trimSpace text = "~") : expandTilde home text = home := by
  simp [expandTilde, h]

theorem expandTilde_below (h : trimSpace text = "~/" ++ rest ∨ trimSpace text = "~\\" ++ rest) :
    expandTilde home text = joinPath home rest := by
  rcases h with h | h
  · simp [expandTilde, h]
  · simp [expandTilde, h]

/-- Without a tilde the path is the trimmed text. -/
theorem expandTilde_plain (h : ∀ rest, ¬BehindTilde text rest) :
    expandTilde home text = trimSpace text := by
  unfold expandTilde
  dsimp only
  split
  · rename_i htilde
    have hbehind : trimSpace text = "~" := by
      rw [← String.toList_inj, htilde]
      rfl
    exact absurd (.inl ⟨hbehind, rfl⟩) (h "")
  · rename_i rest htilde
    have hbehind : trimSpace text = "~/" ++ String.ofList rest := by
      rw [← String.toList_inj, htilde]
      simp
    exact absurd (.inr (.inl hbehind)) (h (String.ofList rest))
  · rename_i rest htilde
    have hbehind : trimSpace text = "~\\" ++ String.ofList rest := by
      rw [← String.toList_inj, htilde]
      simp
    exact absurd (.inr (.inr hbehind)) (h (String.ofList rest))
  · rfl

/-- **Behind a tilde, the components of a relative path follow those of the home directory.** -/
theorem pathComponents_expandTilde (hhome : isAbsolutePath home = true)
    (h : BehindTilde text rest) (hrest : isAbsolutePath rest = false) :
    pathComponents (expandTilde home text) = pathComponents home ++ componentsBelow rest := by
  rcases h with ⟨halone, rfl⟩ | hbelow
  · have hnothing : componentsBelow "" = [] := by decide
    rw [expandTilde_alone halone, hnothing, List.append_nil]
  · rw [expandTilde_below hbelow, pathComponents_joinPath hhome hrest]

/-- An absolute path behind a tilde stands for itself. -/
theorem expandTilde_of_absolute (h : BehindTilde text rest) (hrest : isAbsolutePath rest = true) :
    expandTilde home text = rest := by
  rcases h with ⟨-, rfl⟩ | hbelow
  · exact absurd hrest (by decide)
  · rw [expandTilde_below hbelow, joinPath_of_absolute hrest]

theorem isAbsolutePath_expandTilde (hhome : isAbsolutePath home = true)
    (h : BehindTilde text rest) : isAbsolutePath (expandTilde home text) = true := by
  rcases h with ⟨halone, -⟩ | hbelow
  · rwa [expandTilde_alone halone]
  · rw [expandTilde_below hbelow]
    exact isAbsolutePath_joinPath hhome rest

/-- A text that starts with a tilde and a slash does so when it is trimmed. -/
theorem behindTilde_of_slash (tail : String) :
    BehindTilde ("~/" ++ tail) (String.ofList (trimEnd tail.toList)) := by
  have htilde : EndsSolid "~/".toList := by decide
  have hstart : StartsSolid ("~/" ++ tail).toList := by
    intro c hc
    have hhead : ("~/" ++ tail).toList.head? = some '~' := by simp
    rw [hhead, Option.mem_some_iff] at hc
    rw [← hc]
    decide
  refine .inr (.inl ?_)
  calc trimSpace ("~/" ++ tail)
      = String.ofList (trimEnd ("~/".toList ++ tail.toList)) := by
        rw [trimSpace, trimStart_of_startsSolid hstart, String.toList_append]
    _ = "~/" ++ String.ofList (trimEnd tail.toList) := by
        rw [trimEnd_append_of_endsSolid htilde, String.ofList_append, String.ofList_toList]

/-! ### The home directory -/

/-- **A tilde leads to the home directory unless the path behind it is absolute.**  Where it does,
the components of the path behind it follow those of the home directory, and the directory from
which the path is taken makes no difference.  An absolute path behind a tilde leads to the home
directory only if it is below that by itself.  A text without a tilde is taken as it is. -/
theorem expandTilde_leads_home_iff {home : String} (hhome : isAbsolutePath home = true)
    (text : String) :
    (∀ rest, BehindTilde text rest →
      (pathComponents (expandTilde home text) = pathComponents home ++ componentsBelow rest ↔
        isAbsolutePath rest = false) ∧
      ∀ base, resolveAgainst home base text = expandTilde home text ∧
        (pathComponents home <+: pathComponents (resolveAgainst home base text) ↔
          isAbsolutePath rest = false ∨ pathComponents home <+: pathComponents rest)) ∧
    (∀ tail, text = "~/" ++ tail → ∃ rest, BehindTilde text rest) ∧
    ((∀ rest, ¬BehindTilde text rest) → expandTilde home text = trimSpace text) := by
  refine ⟨fun rest h => ⟨⟨fun heq => ?_, pathComponents_expandTilde hhome h⟩, fun base => ?_⟩,
    fun tail htail => ?_, expandTilde_plain⟩
  · cases hrest : isAbsolutePath rest with
    | false => rfl
    | true =>
      -- the components of the path behind the tilde are all there are
      rw [expandTilde_of_absolute h hrest, componentsBelow_of_absolute hrest] at heq
      exact absurd (List.self_eq_append_left.1 heq) (pathComponents_ne_nil hhome)
  · have hbase : resolveAgainst home base text = expandTilde home text :=
      joinPath_of_absolute (isAbsolutePath_expandTilde hhome h) base
    refine ⟨hbase, ?_⟩
    rw [hbase]
    cases hrest : isAbsolutePath rest with
    | false =>
      rw [pathComponents_expandTilde hhome h hrest]
      simp
    | true =>
      rw [expandTilde_of_absolute h hrest]
      simp
  · exact ⟨_, htail ▸ behindTilde_of_slash tail⟩

/-- A path in the home directory of a user. -/
theorem expandTilde_leads_home_checkout :
    isAbsolutePath "/home/user" = true ∧ BehindTilde " ~/./work//checkout " "./work//checkout" ∧
    isAbsolutePath "./work//checkout" = false ∧
    pathComponents (expandTilde "/home/user" " ~/./work//checkout ") =
      ["/", "home", "user", "work", "checkout"] := by
  have hhome : isAbsolutePath "/home/user" = true := by decide
  have hbehind : BehindTilde " ~/./work//checkout " "./work//checkout" := .inr (.inl (by decide))
  have hrelative : isAbsolutePath "./work//checkout" = false := by decide
  refine ⟨hhome, hbehind, hrelative, ?_⟩
  rw [(((expandTilde_leads_home_iff hhome _).1 _ hbehind).1).2 hrelative]
  decide

/-- Two slashes behind a tilde: the path leads away from the home directory. -/
theorem home_lost_behind_slashes :
    isAbsolutePath "/home/user" = true ∧ BehindTilde "~//etc/hosts" "/etc/hosts" ∧
    expandTilde "/home/user" "~//etc/hosts" = "/etc/hosts" ∧
    ¬pathComponents "/home/user" <+: pathComponents (expandTilde "/home/user" "~//etc/hosts") := by
  refine ⟨by decide, .inr (.inl (by decide)), by decide, by decide⟩

end TaskEngine
