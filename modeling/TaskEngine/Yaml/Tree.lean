import TaskEngine.Yaml.Token

/-!
# Trees of YAML documents

A text has one document at most.  A node with a name takes a slot when it begins, so
that it can be referred to from inside itself too; the number of a slot is the number
of names known at that moment.  A reference is to the slot that its name has where the
reference stands, and means the node that took the slot last.

## Main definitions

* `Tree` — the nodes.
* `Document` — the tree of a document and its named nodes.
* `Builder` — a step that builds part of a tree from tokens.
* `parse` — the document of a text.
-/

namespace TaskEngine.Yaml

/-- A node. -/
inductive Tree
  | scalar (tag : Option Bytes) (style : ScalarStyle) (text : List Char)
  | sequence (tag : Option Bytes) (items : List Tree)
  | mapping (tag : Option Bytes) (entries : List (Tree × Tree))
  /-- Stands for the node of a slot. -/
  | reference (slot : Nat)

namespace Tree

/-- The node where nothing is written. -/
def empty : Tree := .scalar none .plain []

mutual

/-- How many scalars, references, and beginnings and ends of collections a tree has. -/
def size : Tree → Nat
  | .scalar .. | .reference _ => 1
  | .sequence _ items => sizeItems items + 2
  | .mapping _ entries => sizeEntries entries + 2

/-- The size of items. -/
def sizeItems : List Tree → Nat
  | [] => 0
  | item :: items => size item + sizeItems items

/-- The size of entries. -/
def sizeEntries : List (Tree × Tree) → Nat
  | [] => 0
  | (key, value) :: entries => size key + size value + sizeEntries entries

end

end Tree

/-- The tree of a document and its named nodes. -/
structure Document where
  /-- The tree. -/
  root : Tree
  /-- The named nodes with their slots, in the order in which they begin. -/
  named : Array (Nat × Tree)

/-- The node of a slot. -/
def Document.at? (document : Document) (slot : Nat) : Option Tree :=
  (document.named.toList.reverse).lookup slot

/-! ### Building -/

/-- What is left to build, and what is known. -/
structure Draft where
  /-- The tokens that are left. -/
  tokens : List Token
  /-- What the handles of tags stand for. -/
  handles : TagHandles
  /-- The slots of the names, the latest first. -/
  slots : List (List Char × Nat)
  /-- The named nodes with their slots; a node is empty until it is complete. -/
  named : Array (Nat × Tree)

/-- A step that builds part of a tree from tokens. -/
abbrev Builder := StateT Draft Option

namespace Builder

/-- The next token. -/
def peek : Builder (Option Token) := return (← get).tokens.head?

/-- Passes over a token. -/
def advance : Builder Unit := modify fun draft => { draft with tokens := draft.tokens.drop 1 }

/-- Passes over a token of a kind, if it is next, and tells whether it was. -/
def accept (token : Token) : Builder Bool := do
  if (← peek) = some token then
    advance
    return true
  else return false

/-- Passes over a token of a kind, which has to be next. -/
def require (token : Token) : Builder Unit := do
  if ← accept token then return () else failure

/-- The slot of a name that is known. -/
def slotOf (name : List Char) : Builder Nat := do
  match (← get).slots.lookup name with
  | some slot => return slot
  | none => failure

/-- Gives a slot to a node that begins: the place of the node among the named ones. -/
def takeSlot (name : List Char) : Builder Nat := do
  let draft ← get
  let slot := (draft.slots.map Prod.fst).eraseDups.length
  set { draft with
    slots := (name, slot) :: draft.slots
    named := draft.named.push (slot, .empty) }
  return draft.named.size

/-- Builds a node that has a name or none. -/
def withName (anchor : Option (List Char)) (node : Builder Tree) : Builder Tree :=
  match anchor with
  | none => node
  | some name => do
    let place ← takeSlot name
    let tree ← node
    modify fun draft => { draft with
      named := draft.named.modify place fun (slot, _) => (slot, tree) }
    return tree

/-- What is written before a node. -/
structure Properties where
  /-- The name of the node. -/
  anchor : Option (List Char)
  /-- The tag of the node. -/
  tag : Option TagText

/-- Takes what is written before a node: a name and a tag in any order. -/
def properties : Builder Properties := do
  match (← get).tokens with
  | .anchor name :: .tag tag :: _ | .tag tag :: .anchor name :: _ =>
    advance
    advance
    return ⟨some name, some tag⟩
  | .anchor name :: _ =>
    advance
    return ⟨some name, none⟩
  | .tag tag :: _ =>
    advance
    return ⟨none, some tag⟩
  | _ => return ⟨none, none⟩

/-- The tag of a node in full. -/
def fullTag : Option TagText → Builder (Option Bytes)
  | none => return none
  | some tag => do
    match tag.resolve (← get).handles with
    | some bytes => return some bytes
    | none => failure

/-- Whether the next token is one of some tokens. -/
def nextIn (tokens : List Token) : Builder Bool := return (← peek).any (tokens.contains ·)

/-- A node, or the empty one where a token comes that ends its place. -/
def unlessNext (ends : List Token) (node : Builder Tree) : Builder Tree := do
  if ← nextIn ends then return .empty else node

/-- The value of an entry, if it is there. -/
def entryValue (ends : List Token) (node : Builder Tree) : Builder Tree := do
  if ← accept .value then unlessNext ends node else return .empty

/-- Passes over the comma before an item that is not the first. -/
def separate (first : Bool) : Builder Unit := if first then return () else require .flowEntry

/-- The key of a single entry among items; where it is missing, the token in its place is
passed over. -/
def singleKey (node : Builder Tree) : Builder Tree := do
  if ← nextIn [.value, .flowEntry, .flowSequenceEnd] then
    advance
    return .empty
  else node

/-- Where a node stands. -/
inductive Context
  /-- Among the items or entries of a flow collection. -/
  | flow
  /-- Among the items of a block, or alone. -/
  | block
  /-- In an entry of a block, where items may stand as deep as their key. -/
  | entry
  deriving DecidableEq

/-- The scalar of a token; a tag of a single exclamation mark is no tag. -/
def scalarNode (tag : Option Bytes) (style : ScalarStyle) (text : List Char) : Tree :=
  .scalar (if tag = some (encodeChar '!') then none else tag) style text

mutual

/-- A node. -/
def node : Nat → Context → Builder Tree
  | 0, _ => failure
  | fuel + 1, context => do
    match ← peek with
    | some (.reference name) => do
      advance
      return .reference (← slotOf name)
    | _ => do
      let ⟨anchor, tagText⟩ ← properties
      let tag ← fullTag tagText
      withName anchor (content fuel context (anchor.isSome || tagText.isSome) tag)

/-- A node behind its name and tag.  Behind one of these nothing has to be written. -/
def content : Nat → Context → Bool → Option Bytes → Builder Tree
  | 0, _, _, _ => failure
  | fuel + 1, context, announced, tag => do
    match ← peek with
    | some (.scalar style text) => do
      advance
      return scalarNode tag style text
    | some .flowSequenceStart => do
      advance
      return .sequence tag (← flowItems fuel true)
    | some .flowMappingStart => do
      advance
      return .mapping tag (← flowEntries fuel true)
    | next =>
      if next = some .blockEntry ∧ context = .entry then
        return .sequence tag (← looseItems fuel)
      else if next = some .blockSequenceStart ∧ context ≠ .flow then do
        advance
        return .sequence tag (← blockItems fuel)
      else if next = some .blockMappingStart ∧ context ≠ .flow then do
        advance
        return .mapping tag (← blockEntries fuel)
      else if announced then return .scalar tag .plain []
      else failure

/-- The items of a block. -/
def blockItems : Nat → Builder (List Tree)
  | 0 => failure
  | fuel + 1 => do
    if ← accept .blockEntry then
      let item ← unlessNext [.blockEntry, .blockEnd] (node fuel .block)
      return item :: (← blockItems fuel)
    else
      require .blockEnd
      return []

/-- The items that stand as deep as their key, and so in no block of their own. -/
def looseItems : Nat → Builder (List Tree)
  | 0 => failure
  | fuel + 1 => do
    if ← accept .blockEntry then
      let item ← unlessNext [.blockEntry, .key, .value, .blockEnd] (node fuel .block)
      return item :: (← looseItems fuel)
    else return []

/-- The entries of a block. -/
def blockEntries : Nat → Builder (List (Tree × Tree))
  | 0 => failure
  | fuel + 1 => do
    if ← accept .key then
      let key ← unlessNext [.key, .value, .blockEnd] (node fuel .entry)
      let value ← entryValue [.key, .value, .blockEnd] (node fuel .entry)
      return (key, value) :: (← blockEntries fuel)
    else
      require .blockEnd
      return []

/-- The items between brackets.  An item may be a single entry without braces. -/
def flowItems : Nat → Bool → Builder (List Tree)
  | 0, _ => failure
  | fuel + 1, first => do
    if ← accept .flowSequenceEnd then return []
    else
      separate first
      if ← accept .flowSequenceEnd then return []
      else if ← accept .key then
        let key ← singleKey (node fuel .flow)
        let value ← entryValue [.flowEntry, .flowSequenceEnd] (node fuel .flow)
        return .mapping none [(key, value)] :: (← flowItems fuel false)
      else
        let item ← node fuel .flow
        return item :: (← flowItems fuel false)

/-- The entries between braces.  A key alone has an empty value. -/
def flowEntries : Nat → Bool → Builder (List (Tree × Tree))
  | 0, _ => failure
  | fuel + 1, first => do
    if ← accept .flowMappingEnd then return []
    else
      separate first
      if ← accept .flowMappingEnd then return []
      else if ← accept .key then
        let key ← unlessNext [.value, .flowEntry, .flowMappingEnd] (node fuel .flow)
        let value ← entryValue [.flowEntry, .flowMappingEnd] (node fuel .flow)
        return (key, value) :: (← flowEntries fuel false)
      else
        let key ← node fuel .flow
        return (key, .empty) :: (← flowEntries fuel false)

end

/-! ### Documents -/

/-- Whether a token stands between documents. -/
def isEdge : Token → Bool
  | .directive _ | .documentStart | .documentEnd => true
  | _ => false

/-- Takes directives: the version at most once, and each handle at most once. -/
def directives : List Token → Bool → TagHandles → Option (TagHandles × List Token)
  | .directive .version :: tokens, versionSeen, handles =>
    if versionSeen then none else directives tokens true handles
  | .directive (.handle name start) :: tokens, versionSeen, handles =>
    if (handles.lookup name).isSome then none
    else directives tokens versionSeen ((name, start) :: handles)
  | tokens, _, handles => some (handles, tokens)

/-- The tree of a document: behind directives and a line that starts it, or without both. -/
def documentRoot (fuel : Nat) : Builder Tree := do
  match ← peek with
  | none => return .empty
  | some token =>
    if token = .documentEnd ∨ !isEdge token then node fuel .block
    else
      let draft ← get
      let some (handles, tokens) := directives draft.tokens false [] | failure
      set { draft with tokens, handles := handles ++ defaultHandles }
      require .documentStart
      if (← peek).all isEdge then return .empty else node fuel .block

/-- The document of tokens; behind it only lines that end it may follow.  Each token takes
part in no more than four steps into the depth. -/
def ofTokens (tokens : List Token) : Option Document := do
  let (root, draft) ← (documentRoot (4 * (tokens.length + 1))).run ⟨tokens, defaultHandles, [], #[]⟩
  if draft.tokens.all (· = .documentEnd) then return ⟨root, draft.named⟩ else none

end Builder

/-- The document of a text. -/
def parse (text : String) : Option Document := (tokens text).bind Builder.ofTokens

end TaskEngine.Yaml
