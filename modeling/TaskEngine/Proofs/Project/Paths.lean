import TaskEngine.Project.Lookup
import TaskEngine.Proofs.Documents.Records
import TaskEngine.Proofs.Json.Values

/-!
# Paths into documents

The parts of a document that lie within objects only are its nodes; a path of keys leads to each of
them.  They are visited in a certain order: what is inside an object before the object itself, and
the fields of an object in the order of their keys.  This order can be read off the paths.

## Main definitions

* `KeyPath`, `KeyPath.name` — paths of keys, and the names that they make.
* `KeyPath.Earlier` — the order in which paths are visited.
* `Value.at?` — the part of a value that a path leads to.
* `Value.nodes` — all such parts, in the order in which they are visited.
* `Value.Sorted` — all objects within a value have their fields in order.

## Main results

* `Value.sorted_canonical` — what has been put in order is sorted.
* `Value.mem_nodes_iff` — **what is visited is what paths lead to.**
* `Value.pairwise_nodes` — **it is visited in the order of the paths.**
* `Value.parts_eq` — the parts of a value are its nodes under the names of their paths.
-/

namespace TaskEngine

/-- A path of keys. -/
abbrev KeyPath : Type := List String

namespace KeyPath

/-- The name that the keys of a path make: they are joined by two underscores. -/
def name (path : KeyPath) : String := "__".intercalate path

@[simp] theorem name_singleton (key : String) : name [key] = key := String.intercalate_singleton

/-- One more key. -/
theorem name_concat {path : KeyPath} (h : path ≠ []) (key : String) :
    name (path ++ [key]) = path.name ++ "__" ++ key := by
  induction path with
  | nil => exact absurd rfl h
  | cons first path ih =>
    cases path with
    | nil =>
      show "__".intercalate [first, key] = _
      rw [String.intercalate_cons_cons, String.intercalate_singleton, name_singleton]
    | cons second path =>
      have ih : "__".intercalate (second :: (path ++ [key])) =
          "__".intercalate (second :: path) ++ "__" ++ key := ih (List.cons_ne_nil _ _)
      show "__".intercalate (first :: second :: (path ++ [key])) =
        "__".intercalate (first :: second :: path) ++ "__" ++ key
      rw [String.intercalate_cons_cons, String.intercalate_cons_cons, ih]
      simp only [String.append_assoc]

/-- What the one path leads to is visited before what the other leads to. -/
inductive Earlier : KeyPath → KeyPath → Prop
  /-- What is inside an object comes before it. -/
  | inside (key : String) (path : KeyPath) : Earlier (key :: path) []
  /-- The fields of an object come in the order of their keys. -/
  | sibling {key key' : String} (h : key < key') (path path' : KeyPath) :
    Earlier (key :: path) (key' :: path')
  /-- Inside a field it is the same. -/
  | within (key : String) {path path' : KeyPath} (h : Earlier path path') :
    Earlier (key :: path) (key :: path')

theorem Earlier.asymm {path path' : KeyPath} (h : path.Earlier path') : ¬path'.Earlier path := by
  induction h with
  | inside key path => rintro ⟨⟩
  | sibling hlt path path' =>
    intro hback
    cases hback with
    | sibling hgt => exact String.lt_irrefl _ (String.lt_trans hlt hgt)
    | within => exact String.lt_irrefl _ hlt
  | within key h ih =>
    intro hback
    cases hback with
    | sibling hlt => exact String.lt_irrefl _ hlt
    | within _ hback => exact ih hback

end KeyPath

namespace Value

/-- The part of a value that a path leads to, through objects. -/
def at? : KeyPath → Value → Option Value
  | [], value => some value
  | key :: path, value => (value.field? key).bind (at? path)

mutual

/-- The parts of a value that paths lead to, in the order in which they are visited. -/
def nodes : Value → List (KeyPath × Value)
  | .object fields => fieldNodes fields ++ [([], .object fields)]
  | value => [([], value)]

/-- The parts of the fields of an object. -/
def fieldNodes : List (String × Value) → List (KeyPath × Value)
  | [] => []
  | (key, value) :: fields =>
    (nodes value).map (fun node => (key :: node.1, node.2)) ++ fieldNodes fields

end

/-- All objects within a value have their fields in the order of their keys. -/
def Sorted (value : Value) : Prop :=
  ∀ path fields, value.at? path = some (.object fields) → Ascending fields

section Sorted

variable {value part : Value} {key : String} {path : KeyPath} {field : String × Value}
  {fields : List (String × Value)}

@[simp] theorem at?_nil (value : Value) : value.at? [] = some value := rfl

theorem at?_cons (key : String) (path : KeyPath) (fields : List (String × Value)) :
    (object fields).at? (key :: path) = (fields.lookup key).bind (at? path) := rfl

theorem Sorted.ascending (h : (object fields).Sorted) : Ascending fields := h [] fields rfl

/-- A path goes on inside a field. -/
theorem at?_of_mem (h : Ascending fields) (hfield : field ∈ fields) :
    (object fields).at? (field.1 :: path) = field.2.at? path := by
  rw [at?_cons, lookup_of_mem h.nodup hfield]
  rfl

theorem Sorted.of_mem (h : (object fields).Sorted) (hfield : field ∈ fields) : field.2.Sorted := by
  intro path inner hinner
  refine h (field.1 :: path) inner ?_
  rw [at?_of_mem h.ascending hfield, hinner]

theorem mem_canonicalFields (h : field ∈ canonicalFields fields) :
    ∃ value, field.2 = canonical value := by
  induction fields with
  | nil => exact absurd h List.not_mem_nil
  | cons first fields ih =>
    rcases List.mem_cons.1 h with rfl | hlater
    · exact ⟨first.2, rfl⟩
    · exact ih hlater

/-- **What has been put in order is sorted.**  By induction on the path to the object. -/
theorem sorted_canonical (value : Value) : value.canonical.Sorted := by
  intro path
  induction path generalizing value with
  | nil =>
    intro fields hfields
    cases value with
    | object unordered =>
      obtain ⟨kept, hkept, hascending, -⟩ := exists_objectOf (canonicalFields unordered)
      rw [at?_nil, canonical, hkept] at hfields
      cases hfields
      exact hascending
    | null | bool | number | string | array => cases hfields
  | cons key path ih =>
    intro fields hfields
    cases value with
    | object unordered =>
      obtain ⟨kept, hkept, -, hmem⟩ := exists_objectOf (canonicalFields unordered)
      rw [canonical, hkept, at?_cons] at hfields
      obtain ⟨child, hchild, hrest⟩ := Option.bind_eq_some_iff.1 hfields
      obtain ⟨before, after, hkept', -⟩ := List.lookup_eq_some_iff.1 hchild
      have hin : (key, child) ∈ kept := by
        rw [hkept']
        exact List.mem_append_right _ List.mem_cons_self
      obtain ⟨inner, rfl⟩ := mem_canonicalFields (hmem _ hin)
      exact ih inner fields hrest
    | null | bool | number | string | array => cases hfields

/-! ### What is visited -/

theorem fieldNodes_eq (fields : List (String × Value)) :
    fieldNodes fields =
      fields.flatMap fun field => (nodes field.2).map fun node => (field.1 :: node.1, node.2) := by
  induction fields with
  | nil => rw [fieldNodes, List.flatMap_nil]
  | cons field fields ih => rw [fieldNodes, List.flatMap_cons, ih]

theorem not_mem_fieldNodes_nil : ([], part) ∉ fieldNodes fields := by
  rw [fieldNodes_eq]
  simp

theorem mem_fieldNodes_cons : (key :: path, part) ∈ fieldNodes fields ↔
    ∃ value, (key, value) ∈ fields ∧ (path, part) ∈ nodes value := by
  rw [fieldNodes_eq]
  simp only [List.mem_flatMap, List.mem_map, Prod.mk.injEq, List.cons.injEq]
  constructor
  · rintro ⟨field, hfield, node, hnode, ⟨rfl, rfl⟩, rfl⟩
    exact ⟨field.2, hfield, hnode⟩
  · rintro ⟨value, hfield, hnode⟩
    exact ⟨(key, value), hfield, (path, part), hnode, ⟨rfl, rfl⟩, rfl⟩

theorem nodes_of_not_object (h : ∀ fields, value ≠ .object fields) : nodes value = [([], value)] := by
  cases value with
  | object fields => exact absurd rfl (h fields)
  | null | bool | number | string | array => rw [nodes]; exact h

/-- **What is visited is what paths lead to.**  By induction on the path. -/
theorem mem_nodes_iff (h : value.Sorted) : (path, part) ∈ value.nodes ↔ value.at? path = some part := by
  induction path generalizing value with
  | nil =>
    cases value with
    | object fields =>
      rw [nodes, List.mem_append, at?_nil, List.mem_singleton, Prod.mk.injEq, Option.some.injEq]
      exact ⟨fun hmem => (hmem.resolve_left not_mem_fieldNodes_nil).2.symm,
        fun heq => .inr ⟨rfl, heq.symm⟩⟩
    | null | bool | number | string | array =>
      rw [nodes_of_not_object (by rintro fields ⟨⟩), at?_nil, List.mem_singleton, Prod.mk.injEq,
        Option.some.injEq]
      exact ⟨fun hmem => hmem.2.symm, fun heq => ⟨rfl, heq.symm⟩⟩
  | cons key path ih =>
    cases value with
    | object fields =>
      have hobject : (key :: path, part) ∈ nodes (.object fields) ↔
          (key :: path, part) ∈ fieldNodes fields := by
        rw [nodes, List.mem_append, List.mem_singleton, Prod.mk.injEq]
        exact ⟨fun hmem => hmem.resolve_right fun heq => List.cons_ne_nil _ _ heq.1, .inl⟩
      rw [hobject, mem_fieldNodes_cons, at?_cons, Option.bind_eq_some_iff]
      refine exists_congr fun child => ?_
      constructor
      · rintro ⟨hfield, hnode⟩
        exact ⟨lookup_of_mem h.ascending.nodup hfield, (ih (h.of_mem hfield)).1 hnode⟩
      · rintro ⟨hlookup, hrest⟩
        obtain ⟨before, after, rfl, -⟩ := List.lookup_eq_some_iff.1 hlookup
        have hfield : (key, child) ∈ before ++ (key, child) :: after :=
          List.mem_append_right _ List.mem_cons_self
        exact ⟨hfield, (ih (h.of_mem hfield)).2 hrest⟩
    | null | bool | number | string | array =>
      rw [nodes_of_not_object (by rintro fields ⟨⟩), List.mem_singleton, Prod.mk.injEq]
      exact ⟨fun heq => absurd heq.1 (List.cons_ne_nil _ _), fun hnone => by cases hnone⟩

/-- What is visited inside one field comes before what is visited inside a later one. -/
theorem earlier_of_mem_fieldNodes {node : KeyPath × Value} (hlater : ∀ field ∈ fields, key < field.1)
    (hnode : node ∈ fieldNodes fields) (path : KeyPath) : KeyPath.Earlier (key :: path) node.1 := by
  obtain ⟨path', part⟩ := node
  cases path' with
  | nil => exact absurd hnode not_mem_fieldNodes_nil
  | cons key' path' =>
    obtain ⟨value, hfield, -⟩ := mem_fieldNodes_cons.1 hnode
    exact .sibling (hlater _ hfield) path path'

end Sorted

mutual

/-- **The nodes are visited in the order of their paths.** -/
theorem pairwise_nodes : ∀ value : Value, value.Sorted →
    (value.nodes.map Prod.fst).Pairwise KeyPath.Earlier
  | .object fields, h => by
    have hfields := pairwise_fieldNodes fields h.ascending fun field hfield => h.of_mem hfield
    rw [nodes, List.map_append, List.pairwise_append]
    refine ⟨hfields, List.pairwise_singleton _ _, fun path hpath last hlast => ?_⟩
    obtain ⟨⟨path, part⟩, hnode, rfl⟩ := List.mem_map.1 hpath
    obtain rfl := List.mem_singleton.1 hlast
    cases path with
    | nil => exact absurd hnode not_mem_fieldNodes_nil
    | cons key path => exact .inside key path
  | .null, _ | .bool _, _ | .number _, _ | .string _, _ | .array _, _ => by
    rw [nodes_of_not_object (by rintro fields ⟨⟩)]
    exact List.pairwise_singleton _ _

theorem pairwise_fieldNodes : ∀ fields : List (String × Value), Ascending fields →
    (∀ field ∈ fields, field.2.Sorted) →
    ((fieldNodes fields).map Prod.fst).Pairwise KeyPath.Earlier
  | [], _, _ => by
    rw [fieldNodes]
    exact List.Pairwise.nil
  | (key, value) :: fields, hascending, hsorted => by
    obtain ⟨hfirst, hrest⟩ := List.pairwise_cons.1 hascending
    have hvalue := pairwise_nodes value (hsorted _ List.mem_cons_self)
    have hfields := pairwise_fieldNodes fields hrest fun field hfield =>
      hsorted _ (List.mem_cons_of_mem _ hfield)
    rw [fieldNodes, List.map_append, List.pairwise_append]
    refine ⟨?_, hfields, fun path hpath path' hpath' => ?_⟩
    · rw [List.pairwise_map] at hvalue ⊢
      rw [List.pairwise_map]
      exact hvalue.imp fun hearlier => .within key hearlier
    · obtain ⟨node, hnode, rfl⟩ := List.mem_map.1 hpath
      obtain ⟨inner, -, rfl⟩ := List.mem_map.1 hnode
      obtain ⟨node', hnode', rfl⟩ := List.mem_map.1 hpath'
      exact earlier_of_mem_fieldNodes
        (fun field hfield => hfirst _ (List.mem_map_of_mem hfield)) hnode' _

end

mutual

/-- **The parts of a value are its nodes**, under the names of their paths behind that of the
value. -/
theorem parts_eq : ∀ (value : Value) (path : KeyPath), path ≠ [] →
    value.parts path.name = value.nodes.map fun node => (KeyPath.name (path ++ node.1), node.2)
  | .object fields, path, hpath => by
    rw [parts, nodes, fieldParts_eq fields path hpath, List.map_append, List.map_singleton,
      List.append_nil]
  | .null, path, _ | .bool _, path, _ | .number _, path, _ | .string _, path, _
  | .array _, path, _ => by
    rw [nodes_of_not_object (by rintro fields ⟨⟩), List.map_singleton, List.append_nil, parts]
    rintro fields ⟨⟩

theorem fieldParts_eq : ∀ (fields : List (String × Value)) (path : KeyPath), path ≠ [] →
    fieldParts path.name fields =
      (fieldNodes fields).map fun node => (KeyPath.name (path ++ node.1), node.2)
  | [], path, _ => by rw [fieldParts, fieldNodes, List.map_nil]
  | (key, value) :: fields, path, hpath => by
    rw [fieldParts, fieldNodes, ← KeyPath.name_concat hpath,
      parts_eq value (path ++ [key]) (List.append_ne_nil_of_right_ne_nil _ (List.cons_ne_nil _ _)),
      fieldParts_eq fields path hpath, List.map_append, List.map_map]
    simp only [List.append_assoc, List.singleton_append, Function.comp_def]

end

end Value

end TaskEngine
