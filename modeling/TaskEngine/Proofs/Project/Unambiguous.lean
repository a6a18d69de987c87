import TaskEngine.Proofs.Project.Attributes
import Mathlib.Data.List.Infix

/-!
# Names that belong to one path

Two underscores join the keys of a path, and keys may have underscores themselves.  When no key has
two of them in a row and none has one at its end, the first two underscores in a row in a name are
those behind the first key: the path can be read off its name.  Keys may be empty, and they may
begin with an underscore.

## Main definitions

* `OrdinaryKey` — no two underscores in a row, and none at the end.

## Main results

* `OrdinaryKey.append_cancel` — where the first key of a name ends.
* `KeyPath.name_injective` — **different paths of ordinary keys have different names.**
* `attributes_unambiguous` — **in a project of ordinary keys an attribute is the part of the
  document that its path leads to.**
-/

namespace TaskEngine

/-- A key that can be told from what is behind it in a name. -/
structure OrdinaryKey (key : String) : Prop where
  /-- No two underscores stand in a row. -/
  joins : ¬"__".toList <:+: key.toList
  /-- The last character is no underscore. -/
  ends : ¬"_".toList <:+ key.toList

instance (key : String) : Decidable (OrdinaryKey key) :=
  decidable_of_iff (¬"__".toList <:+: key.toList ∧ ¬"_".toList <:+ key.toList)
    ⟨fun h => ⟨h.1, h.2⟩, fun h => ⟨h.joins, h.ends⟩⟩

namespace OrdinaryKey

variable {key key' rest rest' : String}

/-- No ordinary key reaches into the two underscores behind another key. -/
theorem eq_nil_of_append {front more rest rest' : List Char} (hkey : OrdinaryKey key)
    (hfront : key.toList = front ++ more)
    (hmore : '_' :: '_' :: rest = more ++ rest') : more = [] := by
  match more with
  | [] => rfl
  | [c] =>
    obtain ⟨rfl, -⟩ := List.cons.inj hmore
    exact absurd ⟨front, hfront.symm⟩ hkey.ends
  | c :: d :: more =>
    obtain ⟨rfl, htail⟩ := List.cons.inj hmore
    obtain ⟨rfl, -⟩ := List.cons.inj htail
    refine absurd ⟨front, more, ?_⟩ hkey.joins
    rw [hfront]
    simp

/-- **Where the first key of a name ends.** -/
theorem append_cancel (hkey : OrdinaryKey key) (hkey' : OrdinaryKey key')
    (h : key ++ "__" ++ rest = key' ++ "__" ++ rest') : key = key' ∧ rest = rest' := by
  have hlists : key.toList ++ '_' :: '_' :: rest.toList =
      key'.toList ++ '_' :: '_' :: rest'.toList := by
    simpa [String.toList_append] using congrArg String.toList h
  have hkeys : key.toList = key'.toList := by
    rcases List.append_eq_append_iff.1 hlists with ⟨more, hmore, hrest⟩ | ⟨more, hmore, hrest⟩
    · rw [hmore, eq_nil_of_append hkey' hmore hrest, List.append_nil]
    · rw [hmore, eq_nil_of_append hkey hmore hrest, List.append_nil]
  rw [hkeys] at hlists
  have hrests := List.append_cancel_left hlists
  simp only [List.cons.injEq, true_and] at hrests
  exact ⟨String.toList_inj.1 hkeys, String.toList_inj.1 hrests⟩

/-- An ordinary key is no name of several keys. -/
theorem ne_append (hkey : OrdinaryKey key) : key ≠ key' ++ "__" ++ rest := by
  rintro rfl
  refine hkey.joins ⟨key'.toList, rest.toList, ?_⟩
  rw [String.toList_append, String.toList_append]

end OrdinaryKey

namespace KeyPath

/-- One more key in front. -/
theorem name_cons {path : KeyPath} (h : path ≠ []) (key : String) :
    name (key :: path) = key ++ "__" ++ path.name := by
  cases path with
  | nil => exact absurd rfl h
  | cons second path => exact String.intercalate_cons_cons

/-- **Different paths of ordinary keys have different names.**  By induction on the one path; the
first keys agree, and what is behind them is the name of a shorter path. -/
theorem name_injective {path path' : KeyPath} (hpath : path ≠ []) (hpath' : path' ≠ [])
    (hkeys : ∀ key ∈ path, OrdinaryKey key) (hkeys' : ∀ key ∈ path', OrdinaryKey key)
    (h : path.name = path'.name) : path = path' := by
  induction path generalizing path' with
  | nil => exact absurd rfl hpath
  | cons key path ih =>
    obtain ⟨key', path', rfl⟩ := List.exists_cons_of_ne_nil hpath'
    have hkey := hkeys key List.mem_cons_self
    have hkey' := hkeys' key' List.mem_cons_self
    by_cases hrest : path = []
    · subst hrest
      by_cases hrest' : path' = []
      · subst hrest'
        rw [name_singleton, name_singleton] at h
        rw [h]
      · rw [name_singleton, name_cons hrest'] at h
        exact absurd h hkey.ne_append
    · by_cases hrest' : path' = []
      · subst hrest'
        rw [name_singleton, name_cons hrest] at h
        exact absurd h.symm hkey'.ne_append
      · rw [name_cons hrest, name_cons hrest'] at h
        obtain ⟨rfl, hnames⟩ := hkey.append_cancel hkey' h
        rw [ih hrest hrest' (fun k hk => hkeys k (List.mem_cons_of_mem _ hk))
          (fun k hk => hkeys' k (List.mem_cons_of_mem _ hk)) hnames]

/-- Without the condition on the ends, two paths may have one name. -/
example : name ["a_", "b"] = name ["a", "_b"] := by decide

end KeyPath

namespace Project

variable (project : Project)

/-- A project all of whose keys are ordinary, at every depth of its document. -/
def Ordinary : Prop :=
  ∀ path value, project.document.HasNode path value → ∀ key ∈ path, OrdinaryKey key

variable {project} {path : KeyPath} {value : Value}

/-- The nodes can be gone through. -/
theorem ordinary_of_nodes (h : ∀ node ∈ project.document.nodes, ∀ key ∈ node.1, OrdinaryKey key) :
    project.Ordinary := by
  rintro path value ⟨-, hat⟩
  have hsorted : project.document.Sorted := Value.sorted_canonical _
  exact h (path, value) ((Value.mem_nodes_iff hsorted).2 hat)

/-- Two nodes never have the same name. -/
theorem Ordinary.eq_of_name_eq (h : project.Ordinary) {path' : KeyPath} {value' : Value}
    (hnode : project.document.HasNode path value) (hnode' : project.document.HasNode path' value')
    (hname : path.name = path'.name) : path = path' :=
  KeyPath.name_injective hnode.1 hnode'.1 (h path value hnode) (h path' value' hnode') hname

/-- So a node is the first of its name. -/
theorem Ordinary.firstNode (h : project.Ordinary) (hnode : project.document.HasNode path value) :
    project.document.FirstNode path.name path value :=
  ⟨hnode, rfl, fun _ _ hnode' hname => .inl (h.eq_of_name_eq hnode' hnode hname)⟩

theorem ordinary_attributeNames : ∀ name ∈ attributeNames, OrdinaryKey name := by decide

/-- Only a single key can make the name of a declared field. -/
theorem Ordinary.name_notMem (h : project.Ordinary) (hnode : project.document.HasNode path value)
    (hpath : ∀ name ∈ attributeNames, path ≠ [name]) : path.name ∉ attributeNames := by
  intro hmem
  refine hpath path.name hmem ?_
  refine KeyPath.name_injective hnode.1 (List.cons_ne_nil _ _) (h path value hnode) ?_
    (KeyPath.name_singleton _).symm
  intro key hkey
  rw [List.mem_singleton.1 hkey]
  exact ordinary_attributeNames _ hmem

/-- **In a project of ordinary keys an attribute is the part of the document that its path leads
to.**  Two paths never make the same name, and apart from the names of the declared fields each
attribute has the text of the value at its path. -/
theorem attributes_unambiguous (h : project.Ordinary) :
    (∀ path value path' value', project.document.HasNode path value →
      project.document.HasNode path' value' → path.name = path'.name → path = path') ∧
    ∀ path value, project.document.HasNode path value →
      (∀ name ∈ attributeNames, path ≠ [name]) →
      (Lookup.ofProject project).get? path.name = some value.attributeText := by
  constructor
  · intro path value path' value' hnode hnode' hname
    exact h.eq_of_name_eq hnode hnode' hname
  · intro path value hnode hpath
    refine (Lookup.get?_ofProject project path.name value.attributeText).2 (.inr ⟨?_, ?_⟩)
    · exact project.declared?_eq_none (h.name_notMem hnode hpath)
    · exact ⟨path, value, h.firstNode hnode, rfl⟩

/-- A project with an empty key and one that begins with an underscore. -/
def underscored : Project :=
  { Project.empty with
    extra := .ofList [("docker", .object [("", .bool true), ("_image", .string "rust")])] }

/-- The image is found under the name of its path. -/
theorem attributes_unambiguous_underscored :
    underscored.Ordinary ∧
      (Lookup.ofProject underscored).get? "docker___image" = some "rust" := by
  have hordinary : underscored.Ordinary := ordinary_of_nodes (by decide +kernel)
  have hnode : underscored.document.HasNode ["docker", "_image"] (.string "rust") :=
    ⟨List.cons_ne_nil _ _, rfl⟩
  have hname : KeyPath.name ["docker", "_image"] = "docker___image" := by decide
  refine ⟨hordinary, ?_⟩
  rw [← hname]
  exact (attributes_unambiguous hordinary).2 _ _ hnode (by decide)

end Project

end TaskEngine
