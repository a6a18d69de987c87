import TaskEngine.Yaml.Scalar

/-!
# Reading YAML documents

What a node means depends on what is asked of it: where a text is wanted, each scalar is
one; where a list, map or record is wanted, an empty scalar is an empty one; elsewhere a
scalar is what it looks like.

References are followed where they stand.  Two limits keep a document from meaning more
than it could hold: collections are nested at most 128 deep, and one value follows at
most a hundred references for each part of the document.

## Main definitions

* `KeyRule` — what the keys of maps may be.
* `valueOf` — the value of a tree.
* `Node` — the nodes.
* `read` — reads a text with the reader of a node.
-/

namespace TaskEngine.Yaml

/-- How deep collections may be nested. -/
def maxLevels : Nat := 128

/-- How many references may be followed for each part of a document. -/
def referencesPerPart : Nat := 100

/-- What the keys of maps may be. -/
inductive KeyRule
  /-- Each scalar is a key by its text. -/
  | scalars
  /-- Only scalars that look like texts are keys. -/
  | texts
  /-- Each value is a key, but of those that are no texts nothing can be asked. -/
  | values

/-- The levels left inside a collection. -/
def enter (levels : Nat) : Except Fault Nat :=
  match levels with
  | 0 => .error .malformed
  | levels + 1 => .ok levels

/-- What is read while the references that are followed are counted. -/
abbrev Counting := StateT Nat (Except Fault)

/-- The node that a tree stands for. -/
def follow (document : Document) : Tree → Counting Tree
  | .reference slot => do
    match ← get, document.at? slot with
    | left + 1, some tree => do
      set left
      return tree
    | _, _ => throw .malformed
  | tree => return tree

/-- The text of a scalar. -/
def scalarText : Tree → Except Fault String
  | .scalar _ _ text => .ok (String.ofList text)
  | _ => .error .malformed

/-- The value of a float.  One that is not finite has none and is null; where values are kept
aside it must not pass for absent, and a truth value stands for it. -/
def KeyRule.ofFloat (rule : KeyRule) (x : Binary64) : Value :=
  match rule with
  | .values => if x.isFinite then .ofBinary64 x else .bool false
  | _ => .ofBinary64 x

/-- The value of a tree that is a scalar. -/
def scalarOf (rule : KeyRule) : Tree → Except Fault Value
  | .scalar tag style text => scalarValue rule.ofFloat tag style (String.ofList text)
  | _ => .error .malformed

/-- The key that a value is where only texts are keys. -/
def textKey : Value → Except Fault String
  | .string text => .ok text
  | _ => .error .malformed

/-- The value of a tree within some levels. -/
def valueOf (document : Document) (rule : KeyRule) : Nat → Tree → Counting Value
  | 0, tree => do scalarOf rule (← follow document tree)
  | levels + 1, tree => do
    let inner := valueOf document rule levels
    match ← follow document tree with
    | .sequence tag items =>
      if isOwnTag tag then throw .malformed else return .array (← items.mapM inner)
    | .mapping tag entries =>
      if isOwnTag tag then throw .malformed
      else
        let fields ← entries.mapM fun (key, value) => do
          let key ← match rule with
            | .scalars => do scalarText (← follow document key)
            | .texts => do textKey (← inner key)
            | .values => do pure ((← inner key).text?.getD "")
          return (key, ← inner value)
        return Value.objectOf fields
    | tree => scalarOf rule tree

/-- A node of a YAML document. -/
structure Node where
  /-- The document. -/
  document : Document
  /-- How many collections may still be entered. -/
  levels : Nat
  /-- The tree. -/
  tree : Tree

namespace Node

/-- What is read while references are counted, from the beginning of the count. -/
def counting {α : Type} (node : Node) (reading : Counting α) : Except Fault α :=
  reading.run' (referencesPerPart * node.document.root.size)

/-- The node that a node stands for. -/
def target (node : Node) : Except Fault Tree := node.counting (follow node.document node.tree)

/-- The value of a node. -/
def valueBy (rule : KeyRule) (node : Node) : Except Fault Value :=
  node.counting (valueOf node.document rule node.levels node.tree)

/-- The text of a node. -/
def text (node : Node) : Except Fault String := do scalarText (← node.target)

/-- The nodes below a node, behind a level. -/
def below (node : Node) : Except Fault (Tree → Node) :=
  (enter node.levels).map fun levels tree => ⟨node.document, levels, tree⟩

/-- Whether a tree is an empty scalar, and so an empty collection of any kind. -/
def isEmptyPlain : Tree → Bool
  | .scalar _ .plain [] => true
  | _ => false

/-- Whether a node says that an optional value is not there. -/
def saysAbsent : Tree → Except Fault Bool
  | .scalar tag .plain text =>
    let isWord := String.ofList text ∈ nullWords
    match tag with
    | none => .ok (text.isEmpty || isWord)
    | some bytes =>
      if bytes = coreTag "null" then if isWord then .ok true else .error .malformed
      else .ok false
  | _ => .ok false

/-- The items of a list. -/
def items (node : Node) : Except Fault (Listing Node) := do
  match ← node.target with
  | .sequence _ items => return ⟨items.map (← node.below), true⟩
  | tree => if isEmptyPlain tree then return ⟨[], true⟩ else throw .malformed

/-- The entries of a map whose keys are scalars. -/
def fields (node : Node) : Except Fault (Listing (Except Fault String × Node)) := do
  match ← node.target with
  | .mapping _ entries =>
    let below ← node.below
    return ⟨entries.map fun (key, value) => ((below key).text, below value), true⟩
  | tree => if isEmptyPlain tree then return ⟨[], true⟩ else throw .malformed

/-- The key of an entry of a record whose kind is not known yet. -/
def asideKey (node : Node) : Except Fault FieldKey := do
  match ← node.valueBy .values with
  | .string name => return .named name
  | .number (.integer (.ofNat place) _) => return .placed place
  | _ => throw .malformed

/-- The entries of a record whose kind is not known yet. -/
def asideFields (node : Node) : Except Fault (Listing (Except Fault FieldKey × Node)) := do
  match ← node.target with
  | .mapping tag entries =>
    if isOwnTag tag then throw .malformed
    else
      let below ← node.below
      return ⟨entries.map fun (key, value) => ((below key).asideKey, below value), true⟩
  | _ => throw .malformed

/-- The items of a list that gives a record whose kind is not known yet. -/
def taggedPlaces (node : Node) : Option (Except Fault (Listing Node)) :=
  match node.target with
  | .ok (.sequence tag _) => some (if isOwnTag tag then .error .malformed else node.items)
  | _ => none

/-- The truth value of a node. -/
def flag (node : Node) : Except Fault Bool := do
  match ← node.target with
  | .scalar tag style text =>
    if style = .plain ∨ (style = .literal ∧ tag = some (coreTag "bool")) then
      need (plainFlag? (String.ofList text))
    else throw .malformed
  | _ => throw .malformed

end Node

instance : DocumentNode Node where
  text := Node.text
  flag := Node.flag
  isAbsent node := do Node.saysAbsent (← node.target)
  items := Node.items
  fields := Node.fields
  places _ := none
  taggedPlaces := Node.taggedPlaces
  value := Node.valueBy .scalars
  unknown := Node.valueBy .texts
  skip _ := .ok ()
  asideKey := Node.asideFields
  aside := Node.valueBy .values

/-- Reads a whole text. -/
def read {α : Type} (reader : Node → Except Fault α) (text : String) : Except Fault α :=
  match parse text with
  | some document => reader ⟨document, maxLevels, document.root⟩
  | none => .error .malformed

end TaskEngine.Yaml
