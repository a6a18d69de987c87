import TaskEngine.Document
import TaskEngine.Json.Tree

/-!
# Reading JSON documents

A node of a JSON document is a tree and the number of lists and objects that may
still be entered on the way down.  Parts of a document that nobody asks for are only
checked for their form: they may be nested to any depth, and hold numbers that no
value has.

## Main definitions

* `Json.Node` — the nodes.
* `Json.valueOf` — the value of a tree.
* `Json.wellFormed` — whether a tree is complete.
* `Json.read` — reads a text with the reader of a node.
-/

namespace TaskEngine.Json

open TaskEngine

/-- A node of a JSON document. -/
structure Node where
  /-- How many levels of lists and objects are left, counting this node. -/
  levels : Nat
  /-- The tree. -/
  tree : Tree

/-- The number of levels at the top of a document. -/
def maxLevels : Nat := 128

/-- The levels left inside a list or object; the last level cannot be entered. -/
def enter (levels : Nat) : Except Fault Nat :=
  if levels ≤ 1 then .error .malformed else .ok (levels - 1)

/-- The text of a quoted text that names one. -/
def textOf : Option (List Char) → Except Fault String
  | some text => .ok (String.ofList text)
  | none => .error .malformed

mutual

/-- The value of a tree. -/
def valueOf (levels : Nat) : Tree → Except Fault Value
  | .null => .ok .null
  | .bool flag => .ok (.bool flag)
  | .number lexeme =>
    match lexeme.number? with
    | some n => .ok (.number n)
    | none => .error .malformed
  | .quoted text => (textOf text).map .string
  | .array items closed => do
    let levels ← enter levels
    let values ← itemValues levels items
    if closed then .ok (.array values) else .error .malformed
  | .object fields closed => do
    let levels ← enter levels
    let values ← fieldValues levels fields
    if closed then .ok (Value.objectOf values) else .error .malformed
  | .broken => .error .malformed

/-- The values of items. -/
def itemValues (levels : Nat) : List Tree → Except Fault (List Value)
  | [] => .ok []
  | item :: items => do
    let value ← valueOf levels item
    let values ← itemValues levels items
    return value :: values

/-- The values of fields. -/
def fieldValues (levels : Nat) :
    List (Option (List Char) × Tree) → Except Fault (List (String × Value))
  | [] => .ok []
  | (key, item) :: fields => do
    let key ← textOf key
    let value ← valueOf levels item
    let values ← fieldValues levels fields
    return (key, value) :: values

end

mutual

/-- Whether the text of a tree is complete. -/
def wellFormed : Tree → Bool
  | .array items closed => wellFormedItems items && closed
  | .object fields closed => wellFormedFields fields && closed
  | .broken => false
  | _ => true

/-- Whether the texts of items are complete. -/
def wellFormedItems : List Tree → Bool
  | [] => true
  | item :: items => wellFormed item && wellFormedItems items

/-- Whether the texts of fields are complete. -/
def wellFormedFields : List (Option (List Char) × Tree) → Bool
  | [] => true
  | (_, item) :: fields => wellFormed item && wellFormedFields fields

end

/-- The entries of an object. -/
def Node.entries {κ : Type} (key : String → κ) (node : Node) :
    Except Fault (Listing (Except Fault κ × Node)) :=
  match node.tree with
  | .object fields closed => do
    let levels ← enter node.levels
    return ⟨fields.map fun (name, tree) => ((textOf name).map key, ⟨levels, tree⟩), closed⟩
  | _ => .error .malformed

/-- The items of a list. -/
def Node.listing (node : Node) : Except Fault (Listing Node) :=
  match node.tree with
  | .array items closed => do
    let levels ← enter node.levels
    return ⟨items.map (⟨levels, ·⟩), closed⟩
  | _ => .error .malformed

instance : DocumentNode Node where
  text node := match node.tree with
    | .quoted text => textOf text
    | _ => .error .malformed
  flag node := match node.tree with
    | .bool flag => .ok flag
    | _ => .error .malformed
  isAbsent node := match node.tree with
    | .null => .ok true
    | _ => .ok false
  items := Node.listing
  fields := Node.entries id
  places node := match node.tree with
    | .array .. => some node.listing
    | _ => none
  taggedPlaces node := match node.tree with
    | .array .. => some node.listing
    | _ => none
  value node := valueOf node.levels node.tree
  unknown node := valueOf node.levels node.tree
  skip node := if wellFormed node.tree then .ok () else .error .malformed
  asideKey := Node.entries .named
  aside node := valueOf node.levels node.tree

/-- Reads a whole text. -/
def read {α : Type} (reader : Node → Except Fault α) (text : String) : Except Fault α := do
  let document := parse text
  let found ← reader ⟨maxLevels, document.tree⟩
  if document.trailing then .error .malformed else .ok found

/-- Reads the value of a whole text. -/
def readValue (text : String) : Except Fault Value := read DocumentNode.value text

end TaskEngine.Json
