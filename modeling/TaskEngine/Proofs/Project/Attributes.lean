import TaskEngine.Proofs.Project.Paths

/-!
# The attributes of a project

The attributes come from two sources: the declared fields of the repository, under six fixed names,
and the nodes of the document, each under the name of its path.  Different paths may make the same
name, and some make one of the six.  All attributes are put into one table, and the first of a name
is the one that stays.

## Main definitions

* `Project.declared?`, `Project.attributeNames` — the declared field of a name, and the six names.
* `Value.HasNode`, `Value.FirstNode` — the nodes of a document, and the first one of a name.
* `Lookup.filled`, `Project.attributes` — the table, and what is put into it, in this order.

## Main results

* `get?_filled` — a table that is filled keeps the first text of each name.
* `lookup_documentParts` — what is found in a document under a name is the first node of the name.
* `get?_ofProject` — the text of an attribute.
* `lookup_ofProject` — **declared fields count first, then the nodes of the document in the order in
  which they are visited; and nothing is overwritten.**
-/

namespace TaskEngine

/-! ### Tables that keep what comes first -/

namespace Lookup

/-- The table into which texts have been put one after another. -/
def filled (pairs : List (String × String)) : OrderedMap String :=
  pairs.foldl (fun texts (name, text) => texts.insertNew name text) ∅

/-- **A table keeps the first text of each name.**  By induction on what is put in, for any table to
begin with. -/
theorem get?_filled (pairs : List (String × String)) (name : String) :
    (filled pairs).get? name = pairs.lookup name := by
  have hfold : ∀ texts : OrderedMap String,
      (pairs.foldl (fun texts (name, text) => texts.insertNew name text) texts).get? name =
        (texts.get? name).or (pairs.lookup name) := by
    induction pairs with
    | nil => exact fun texts => (Option.or_none).symm
    | cons pair pairs ih =>
      intro texts
      rw [List.foldl_cons, ih, OrderedMap.get?_insertNew, lookup_cons_ite, Option.or_assoc]
      split <;> rfl
  rw [filled, hfold]
  rfl

/-- What a table has of some texts, it has of these and more. -/
theorem get?_filled_take {pairs : List (String × String)} {n : Nat} {name text : String}
    (h : (filled (pairs.take n)).get? name = some text) : (filled pairs).get? name = some text := by
  rw [get?_filled] at h ⊢
  have hsplit : pairs.lookup name = ((pairs.take n).lookup name).or ((pairs.drop n).lookup name) := by
    rw [← List.lookup_append, List.take_append_drop]
  rw [hsplit, h]
  rfl

end Lookup

/-! ### The first node of a name -/

namespace Value

/-- A path leads to a node of a document; the document as a whole is none. -/
def HasNode (document : Value) (path : KeyPath) (value : Value) : Prop :=
  path ≠ [] ∧ document.at? path = some value

/-- **The nodes of an object are what is visited inside it.** -/
theorem mem_fieldNodes_iff {fields : List (String × Value)} (h : (object fields).Sorted)
    {path : KeyPath} {part : Value} :
    (path, part) ∈ fieldNodes fields ↔ (object fields).HasNode path part := by
  rw [HasNode, ← mem_nodes_iff h, nodes, List.mem_append, List.mem_singleton, Prod.mk.injEq]
  constructor
  · intro hmem
    refine ⟨?_, .inl hmem⟩
    rintro rfl
    exact not_mem_fieldNodes_nil hmem
  · rintro ⟨hpath, hmem⟩
    exact hmem.resolve_right fun heq => hpath heq.1

/-- A path leads to the first node of a name: all others of the name are visited later. -/
structure FirstNode (document : Value) (name : String) (path : KeyPath) (value : Value) :
    Prop where
  /-- There is a node. -/
  node : document.HasNode path value
  /-- It has the name. -/
  named : path.name = name
  /-- No other of the name comes before. -/
  first : ∀ path' value', document.HasNode path' value' → path'.name = name →
    path' = path ∨ path.Earlier path'

end Value

/-- Among pairs in a strict order of their first parts, what is found under a name is the first of
the name. -/
theorem lookup_eq_some_iff_first {ι α : Type} {R : ι → ι → Prop} (hasymm : ∀ i j, R i j → ¬R j i)
    (f : ι → String) {pairs : List (ι × α)} (hpairs : (pairs.map Prod.fst).Pairwise R)
    (name : String) (value : α) :
    (pairs.map fun pair => (f pair.1, pair.2)).lookup name = some value ↔
      ∃ i, (i, value) ∈ pairs ∧ f i = name ∧ ∀ pair ∈ pairs, f pair.1 = name →
        pair.1 = i ∨ R i pair.1 := by
  induction pairs with
  | nil => simp
  | cons pair pairs ih =>
    obtain ⟨hfirst, hrest⟩ := List.pairwise_cons.1 hpairs
    have hbefore : ∀ later ∈ pairs, R pair.1 later.1 :=
      fun later hlater => hfirst _ (List.mem_map_of_mem hlater)
    rw [List.map_cons, lookup_cons_ite]
    by_cases hname : name = f pair.1
    · rw [if_pos hname, Option.some.injEq]
      constructor
      · rintro rfl
        refine ⟨pair.1, List.mem_cons_self, hname.symm, fun other hother _ => ?_⟩
        rcases List.mem_cons.1 hother with rfl | hlater
        · exact .inl rfl
        · exact .inr (hbefore other hlater)
      · rintro ⟨i, hmem, -, hall⟩
        rcases List.mem_cons.1 hmem with heq | hlater
        · exact congrArg Prod.snd heq.symm
        · -- a later one would have to come before the first
          have hearlier : R pair.1 i := hbefore _ hlater
          rcases hall pair List.mem_cons_self hname.symm with rfl | hback
          · exact absurd hearlier (hasymm _ _ hearlier)
          · exact absurd hback (hasymm _ _ hearlier)
    · rw [if_neg hname, ih hrest]
      refine exists_congr fun i => ?_
      constructor
      · rintro ⟨hmem, hi, hall⟩
        refine ⟨List.mem_cons_of_mem _ hmem, hi, fun other hother hother' => ?_⟩
        rcases List.mem_cons.1 hother with rfl | hlater
        · exact absurd hother'.symm hname
        · exact hall other hlater hother'
      · rintro ⟨hmem, hi, hall⟩
        refine ⟨?_, hi, fun other hother => hall other (List.mem_cons_of_mem _ hother)⟩
        rcases List.mem_cons.1 hmem with rfl | hlater
        · exact absurd hi.symm hname
        · exact hlater

/-- Of pairs with different keys, those without a value can be left out. -/
theorem lookup_filterMap {α : Type} {pairs : List (String × Option α)}
    (h : (pairs.map Prod.fst).Nodup) (name : String) :
    (pairs.filterMap fun (key, value) => value.map (key, ·)).lookup name =
      (pairs.lookup name).join := by
  induction pairs with
  | nil => rfl
  | cons pair pairs ih =>
    obtain ⟨hnew, hrest⟩ := List.nodup_cons.1 h
    rw [lookup_cons_ite]
    cases hvalue : pair.2 with
    | none =>
      simp only [List.filterMap_cons, hvalue, Option.map_none]
      rw [ih hrest]
      by_cases hname : name = pair.1
      · rw [if_pos hname, hname, lookup_eq_none_of_notMem hnew]
        rfl
      · rw [if_neg hname]
    | some value =>
      simp only [List.filterMap_cons, hvalue, Option.map_some]
      rw [lookup_cons_ite, ih hrest]
      by_cases hname : name = pair.1
      · rw [if_pos hname, if_pos hname]
        rfl
      · rw [if_neg hname, if_neg hname]

namespace Project

variable (project : Project)

/-- The document of a project is an object whose parts are in order. -/
theorem exists_document : ∃ fields, project.document = .object fields ∧
    (Value.object fields).Sorted := by
  have hsorted : project.document.Sorted := Value.sorted_canonical _
  obtain ⟨fields, hfields, -⟩ := Value.exists_objectOf (Value.canonicalFields
    (project.extra.entries ++
      [("project", project.project.toObject), ("tasks", project.tasksDocument)]))
  have hdocument : project.document = .object fields := by
    rw [document, Value.canonical, hfields]
  exact ⟨fields, hdocument, hdocument ▸ hsorted⟩

theorem documentParts_eq {fields : List (String × Value)}
    (h : project.document = .object fields) :
    project.documentParts =
      (Value.fieldNodes fields).map fun node => (KeyPath.name node.1, node.2) := by
  rw [documentParts, h, Value.fieldNodes_eq, List.map_flatMap]
  dsimp only
  refine congrArg (List.flatMap · fields) (funext fun field => ?_)
  rw [← KeyPath.name_singleton field.1, Value.parts_eq field.2 _ (List.cons_ne_nil _ _),
    List.map_map]
  rfl

/-- The parts of a document have the names of the paths to its nodes. -/
theorem mem_documentParts (name : String) (value : Value) :
    (name, value) ∈ project.documentParts ↔
      ∃ path, project.document.HasNode path value ∧ path.name = name := by
  obtain ⟨fields, hdocument, hsorted⟩ := project.exists_document
  rw [documentParts_eq project hdocument, hdocument, List.mem_map]
  constructor
  · rintro ⟨⟨path, part⟩, hmem, heq⟩
    cases heq
    exact ⟨path, (Value.mem_fieldNodes_iff hsorted).1 hmem, rfl⟩
  · rintro ⟨path, hnode, rfl⟩
    exact ⟨(path, value), (Value.mem_fieldNodes_iff hsorted).2 hnode, rfl⟩

/-- **What is found in a document under a name is the first node of the name.** -/
theorem lookup_documentParts (name : String) (value : Value) :
    project.documentParts.lookup name = some value ↔
      ∃ path, project.document.FirstNode name path value := by
  obtain ⟨fields, hdocument, hsorted⟩ := project.exists_document
  have hnodes : ∀ path part, (path, part) ∈ Value.fieldNodes fields ↔
      project.document.HasNode path part := by
    intro path part
    rw [hdocument]
    exact Value.mem_fieldNodes_iff hsorted
  have hordered : ((Value.fieldNodes fields).map Prod.fst).Pairwise KeyPath.Earlier :=
    Value.pairwise_fieldNodes fields hsorted.ascending fun field hfield => hsorted.of_mem hfield
  rw [documentParts_eq project hdocument,
    lookup_eq_some_iff_first (fun _ _ => KeyPath.Earlier.asymm) KeyPath.name hordered]
  refine exists_congr fun path => ?_
  constructor
  · rintro ⟨hmem, hname, hall⟩
    exact ⟨(hnodes _ _).1 hmem, hname, fun path' value' hnode hname' =>
      hall (path', value') ((hnodes _ _).2 hnode) hname'⟩
  · rintro ⟨hnode, hname, hall⟩
    exact ⟨(hnodes _ _).2 hnode, hname, fun other hother hname' =>
      hall other.1 other.2 ((hnodes _ _).1 hother) hname'⟩

/-! ### The table of a project -/

/-- The declared field of a name, if the name is one of six and the field is set. -/
def declared? (project : Project) (name : String) : Option String :=
  match name with
  | "repo_root" => project.repoRoot
  | "repo_name" => project.repo.name
  | "repo_owner" => project.repo.owner
  | "repo_url" => project.repo.url
  | "repo_branch" => project.repo.branch
  | "repo_commit" => project.repo.commit
  | _ => none

/-- The names of the declared fields. -/
def attributeNames : List String :=
  ["repo_root", "repo_name", "repo_owner", "repo_url", "repo_branch", "repo_commit"]

/-- The attributes of a project, in the order in which they are put into the table. -/
def attributes (project : Project) : List (String × String) :=
  project.declaredAttributes.filterMap (fun (name, text) => text.map (name, ·)) ++
    project.documentParts.map fun (name, value) => (name, value.attributeText)

theorem texts_ofProject : (Lookup.ofProject project).texts = Lookup.filled project.attributes := rfl

theorem lookup_declaredAttributes (name : String) :
    (project.declaredAttributes.lookup name).join = project.declared? name := by
  unfold declared? declaredAttributes
  split <;> simp_all [lookup_cons_ite]

theorem map_fst_declaredAttributes : project.declaredAttributes.map Prod.fst = attributeNames := rfl

theorem nodup_declaredAttributes : (project.declaredAttributes.map Prod.fst).Nodup := by
  rw [map_fst_declaredAttributes]
  decide

/-- Under any other name no field is declared. -/
theorem declared?_eq_none {name : String} (h : name ∉ attributeNames) :
    project.declared? name = none := by
  rw [← map_fst_declaredAttributes project] at h
  rw [← lookup_declaredAttributes, lookup_eq_none_of_notMem h]
  rfl

end Project

namespace Lookup

variable (project : Project)

/-- The text of an attribute: the declared field, or else what is first in the document. -/
theorem get?_ofProject_eq (name : String) :
    (ofProject project).get? name =
      (project.declared? name).or
        ((project.documentParts.lookup name).map Value.attributeText) := by
  rw [Lookup.get?, Project.texts_ofProject, get?_filled, Project.attributes, List.lookup_append,
    lookup_filterMap project.nodup_declaredAttributes, project.lookup_declaredAttributes,
    ← lookup_map_value fun _ => Value.attributeText]

/-- **The text of an attribute.** -/
theorem get?_ofProject (name text : String) :
    (ofProject project).get? name = some text ↔
      project.declared? name = some text ∨ project.declared? name = none ∧
        ∃ path value, project.document.FirstNode name path value ∧ value.attributeText = text := by
  have hnode : (project.documentParts.lookup name).map Value.attributeText = some text ↔
      ∃ path value, project.document.FirstNode name path value ∧ value.attributeText = text := by
    rw [Option.map_eq_some_iff]
    constructor
    · rintro ⟨value, hvalue, htext⟩
      obtain ⟨path, hfirst⟩ := (project.lookup_documentParts name value).1 hvalue
      exact ⟨path, value, hfirst, htext⟩
    · rintro ⟨path, value, hfirst, htext⟩
      exact ⟨value, (project.lookup_documentParts name value).2 ⟨path, hfirst⟩, htext⟩
  rw [get?_ofProject_eq, Option.or_eq_some_iff, hnode]

/-- An attribute is there when its field is set or some node has its name. -/
theorem mem_keys_ofProject (name : String) :
    name ∈ (ofProject project).texts.keys ↔
      (project.declared? name).isSome = true ∨
        ∃ path value, project.document.HasNode path value ∧ path.name = name := by
  have hnode : (project.documentParts.lookup name).isSome = true ↔
      ∃ path value, project.document.HasNode path value ∧ path.name = name := by
    rw [lookup_isSome_iff_mem, List.mem_map]
    constructor
    · rintro ⟨⟨_, value⟩, hpart, rfl⟩
      obtain ⟨path, hhas, hname⟩ := (project.mem_documentParts _ value).1 hpart
      exact ⟨path, value, hhas, hname⟩
    · rintro ⟨path, value, hhas, hname⟩
      exact ⟨(name, value), (project.mem_documentParts name value).2 ⟨path, hhas, hname⟩, rfl⟩
  rw [← OrderedMap.contains_iff, OrderedMap.contains]
  show ((ofProject project).get? name).isSome = true ↔ _
  rw [get?_ofProject_eq, Option.isSome_or, Bool.or_eq_true, Option.isSome_map, hnode]

/-- **Declared fields count first, then the nodes of the document in the order in which they are
visited.**  Each name has one entry, and what has been put into the table is not overwritten. -/
theorem lookup_ofProject :
    (∀ name text, (ofProject project).get? name = some text ↔
      project.declared? name = some text ∨ project.declared? name = none ∧
        ∃ path value, project.document.FirstNode name path value ∧ value.attributeText = text) ∧
    ((ofProject project).texts.keys.Nodup ∧
      ∀ name, name ∈ (ofProject project).texts.keys ↔
        (project.declared? name).isSome = true ∨
          ∃ path value, project.document.HasNode path value ∧ path.name = name) ∧
    ∀ n name text, (filled (project.attributes.take n)).get? name = some text →
      (ofProject project).get? name = some text :=
  ⟨get?_ofProject project, ⟨(ofProject project).texts.nodup, mem_keys_ofProject project⟩,
    fun _ _ _ htext => get?_filled_take htext⟩

/-- A key with two underscores in it makes the name of a nested path; what is visited first stays. -/
example :
    (ofProject { Project.empty with
      extra := .ofList [("a__b", .bool true), ("a", .object [("b", .null)])] }).get? "a__b" =
      some "None" := by
  decide +kernel

end Lookup

end TaskEngine
