import TaskEngine.Yaml.Folding
import TaskEngine.Yaml.Name

/-!
# Tokens of YAML text

Collections are written with brackets or by indentation.  Indentation is made visible
here: blocks get tokens for their beginnings and ends.  Whether a scalar is the key of
an entry shows only at the colon behind it, so the place of a possible key is
remembered, and the tokens that announce the key are put in there afterwards.

## Main definitions

* `ScalarStyle`, `Token` — the tokens.
* `PossibleKey` — a place at which a key may have begun.
* `Lexer` — how far a text is cut into tokens.
* `Lexer.advance` — takes the next token.
* `tokens` — the tokens of a text.
-/

namespace TaskEngine.Yaml

/-- How a scalar is written. -/
inductive ScalarStyle
  | plain
  | quoted
  | literal
  | folded
  deriving DecidableEq

/-- A token. -/
inductive Token
  | directive (directive : Directive)
  | documentStart
  | documentEnd
  | blockSequenceStart
  | blockMappingStart
  | blockEnd
  | flowSequenceStart
  | flowSequenceEnd
  | flowMappingStart
  | flowMappingEnd
  | blockEntry
  | flowEntry
  | key
  | value
  /-- Stands for the node of a name. -/
  | reference (name : List Char)
  | anchor (name : List Char)
  | tag (text : TagText)
  | scalar (style : ScalarStyle) (text : List Char)
  deriving DecidableEq

/-- A place at which a key may have begun. -/
structure PossibleKey where
  /-- Whether nothing but a key can have begun there. -/
  required : Bool
  /-- How many tokens come before it. -/
  place : Nat
  /-- Its line. -/
  line : Nat
  /-- Its column. -/
  column : Nat

/-- How far a key may go on, in characters; it cannot go on over a line break either. -/
def maxKeyLength : Nat := 1024

/-- Whether what began at a place has gone on too long to be a key. -/
def PossibleKey.isStale (key : PossibleKey) (cursor : Cursor) : Bool :=
  key.line < cursor.line || key.column + maxKeyLength < cursor.column

/-- How far a text is cut into tokens. -/
structure Lexer where
  /-- The place in the text. -/
  cursor : Cursor
  /-- The tokens before it. -/
  tokens : Array Token
  /-- The columns of the open blocks, innermost first. -/
  indents : List Nat
  /-- The key that may have begun in the innermost flow collection, or else in the block. -/
  possibleKey : Option PossibleKey
  /-- The same for the collections around it, one for each open flow collection. -/
  outerKeys : List (Option PossibleKey)
  /-- Whether a key may begin at the place. -/
  keyAllowed : Bool

namespace Lexer

/-- The beginning of a text. -/
def start (text : List Char) : Lexer := ⟨⟨text, 0, 0⟩, #[], [], none, [], true⟩

/-- Whether the place is inside a flow collection. -/
def inFlow (lexer : Lexer) : Bool := !lexer.outerKeys.isEmpty

/-- The least column at which what belongs to the innermost block goes on. -/
def leastColumn (lexer : Lexer) : Nat :=
  match lexer.indents with
  | [] => 0
  | indent :: _ => indent + 1

/-- Goes on behind a token. -/
def emit (lexer : Lexer) (token : Token) (cursor : Cursor) : Lexer :=
  { lexer with tokens := lexer.tokens.push token, cursor }

/-- Goes on behind a token of some characters. -/
def emitShort (lexer : Lexer) (token : Token) (length : Nat) : Lexer :=
  lexer.emit token (lexer.cursor.skip length)

/-- Says whether a key may begin at the place. -/
def allowKey (lexer : Lexer) (allowed : Bool) : Lexer := { lexer with keyAllowed := allowed }

/-! ### Possible keys -/

/-- Forgets a key that has gone on too long, which is a fault if it had to be one. -/
def dropStale (cursor : Cursor) : Option PossibleKey → Option (Option PossibleKey)
  | none => some none
  | some key =>
    if key.isStale cursor then if key.required then none else some none else some (some key)

/-- Forgets all keys that have gone on too long. -/
def dropStaleKeys (lexer : Lexer) : Option Lexer := do
  let possibleKey ← dropStale lexer.cursor lexer.possibleKey
  let outerKeys ← lexer.outerKeys.mapM (dropStale lexer.cursor)
  return { lexer with possibleKey, outerKeys }

/-- Forgets the possible key, which is a fault if it had to be one. -/
def dropKey (lexer : Lexer) : Option Lexer :=
  if lexer.possibleKey.any (·.required) then none else some { lexer with possibleKey := none }

/-- Remembers that a key may begin at the place. -/
def saveKey (lexer : Lexer) : Option Lexer :=
  if lexer.keyAllowed then
    lexer.dropKey.map fun lexer =>
      let column := lexer.cursor.column
      let required := !lexer.inFlow && lexer.indents.head? == some column
      { lexer with
        possibleKey := some ⟨required, lexer.tokens.size, lexer.cursor.line, column⟩ }
  else some lexer

/-! ### Indentation -/

/-- Opens a block at a column, unless it is open already or flow collections are; its token
takes a place among the tokens. -/
def openBlock (lexer : Lexer) (column place : Nat) (token : Token) : Lexer :=
  if lexer.inFlow || lexer.indents.head?.any (column ≤ ·) then lexer
  else
    { lexer with
      indents := column :: lexer.indents
      tokens := lexer.tokens.insertIdxIfInBounds place token }

/-- Closes the blocks of a class of columns from the inside, unless flow collections are open. -/
def closeBlocks (lexer : Lexer) (isClosed : Nat → Bool) : Lexer :=
  if lexer.inFlow then lexer
  else
    let closed := lexer.indents.takeWhile isClosed
    { lexer with
      indents := lexer.indents.drop closed.length
      tokens := lexer.tokens ++ Array.replicate closed.length Token.blockEnd }

/-- Closes all blocks, at the edge of a document. -/
def closeAll (lexer : Lexer) : Option Lexer :=
  (lexer.closeBlocks fun _ => true).dropKey.map (·.allowKey false)

/-! ### Tokens -/

/-- Takes a directive. -/
def takeDirective (lexer : Lexer) : Option Lexer := do
  let lexer ← lexer.closeAll
  let (directive, after) ← readDirective (lexer.cursor.rest.drop 1)
  let after ← finishLine after
  return lexer.emit (.directive directive) ⟨after, lexer.cursor.line + 1, 0⟩

/-- Takes the line between two documents. -/
def takeEdge (lexer : Lexer) (token : Token) : Option Lexer :=
  lexer.closeAll.map fun lexer => lexer.emitShort token 3

/-- Takes the beginning of a flow collection. -/
def takeFlowStart (lexer : Lexer) (token : Token) : Option Lexer :=
  lexer.saveKey.map fun lexer =>
    { lexer.emitShort token 1 with
      outerKeys := lexer.possibleKey :: lexer.outerKeys
      possibleKey := none
      keyAllowed := true }

/-- Takes the end of a flow collection. -/
def takeFlowEnd (lexer : Lexer) (token : Token) : Option Lexer :=
  lexer.dropKey.map fun lexer =>
    let lexer := (lexer.emitShort token 1).allowKey false
    match lexer.outerKeys with
    | [] => lexer
    | possibleKey :: outerKeys => { lexer with possibleKey, outerKeys }

/-- Takes a comma. -/
def takeFlowEntry (lexer : Lexer) : Option Lexer :=
  lexer.dropKey.map fun lexer => (lexer.allowKey true).emitShort .flowEntry 1

/-- Opens a block at the place, where outside flow collections a key has to be allowed. -/
def openHere (lexer : Lexer) (token : Token) : Option Lexer :=
  if lexer.inFlow then some lexer
  else if lexer.keyAllowed then
    some (lexer.openBlock lexer.cursor.column lexer.tokens.size token)
  else none

/-- Takes a dash before an item. -/
def takeBlockEntry (lexer : Lexer) : Option Lexer := do
  let lexer ← lexer.openHere .blockSequenceStart
  let lexer ← lexer.dropKey
  return (lexer.allowKey true).emitShort .blockEntry 1

/-- Takes the question mark before a key. -/
def takeKey (lexer : Lexer) : Option Lexer := do
  let lexer ← lexer.openHere .blockMappingStart
  let lexer ← lexer.dropKey
  return (lexer.allowKey !lexer.inFlow).emitShort .key 1

/-- Takes the colon before a value.  If a key may have begun before it, it has. -/
def takeValue (lexer : Lexer) : Option Lexer :=
  match lexer.possibleKey with
  | some key =>
    let lexer := { lexer with tokens := lexer.tokens.insertIdxIfInBounds key.place .key }
    let lexer := lexer.openBlock key.column key.place .blockMappingStart
    some ({ lexer with possibleKey := none, keyAllowed := false }.emitShort .value 1)
  | none => do
    let lexer ← lexer.openHere .blockMappingStart
    return (lexer.allowKey !lexer.inFlow).emitShort .value 1

/-- Takes a name behind a sign. -/
def takeName (lexer : Lexer) (token : List Char → Token) : Option Lexer := do
  let lexer ← lexer.saveKey
  let (name, cursor) ← readName (lexer.cursor.skip 1)
  return (lexer.allowKey false).emit (token name) cursor

/-- Takes a tag. -/
def takeTag (lexer : Lexer) : Option Lexer := do
  let lexer ← lexer.saveKey
  let (tag, cursor) ← readTag lexer.inFlow lexer.cursor
  return (lexer.allowKey false).emit (.tag tag) cursor

/-- Takes an indented text.  It stands as deep as its header says, or else as its first line,
but deeper than the block around it. -/
def takeBlockScalar (lexer : Lexer) (style : ScalarStyle) : Option Lexer := do
  let lexer ← lexer.dropKey
  let (header, after) ← readHeader (style == .folded) (lexer.cursor.rest.drop 1)
  let after ← finishLine after
  let indent ← match header.increment with
    | some increment => some ((lexer.indents.head?.getD 0) + increment)
    | none => (deepest 0 0 after).map (max · (max lexer.leastColumn 1))
  let (text, cursor) ← readBlock header indent (.between false none []) (lexer.cursor.line + 1) 0
    after
  return (lexer.allowKey true).emit (.scalar style text) cursor

/-- Takes a text between quotes. -/
def takeQuoted (lexer : Lexer)
    (read : Between → Nat → Nat → List Char → Option (List Char × Cursor)) : Option Lexer := do
  let lexer ← lexer.saveKey
  let cursor := lexer.cursor.skip 1
  let (text, cursor) ← read .nothing cursor.line cursor.column cursor.rest
  return (lexer.allowKey false).emit (.scalar .quoted text) cursor

/-- Takes a text without quotes.  A key may begin behind it if it ends at a line break. -/
def takePlain (lexer : Lexer) : Option Lexer := do
  let lexer ← lexer.saveKey
  let cursor := lexer.cursor
  let found ← readPlain lexer.inFlow lexer.leastColumn .nothing cursor.line cursor.column cursor.rest
  return (lexer.allowKey found.endsLine).emit (.scalar .plain found.text) found.cursor

/-- The characters that mean something at the beginning of a token. -/
def indicators : List Char := "-?:,[]\x7b\x7d#&*!|>\x27\x22%@\x60".toList

/-- Whether a text without quotes may begin with a character. -/
def startsPlain (inFlow : Bool) (c : Char) (next : Option Char) : Bool :=
  (!isBlank c && !indicators.contains c) || (c == '-' && !next.any isBlank) ||
    (!inFlow && (c == '?' || c == ':') && !endsWord next)

/-- Takes the token that begins with a character of the text. -/
def takeFrom (lexer : Lexer) (c : Char) : Option Lexer :=
  let next := lexer.cursor.peek? 1
  let atStart := lexer.cursor.column == 0
  if atStart && c == '%' then lexer.takeDirective
  else if atStart && startsMarker '-' lexer.cursor.rest then lexer.takeEdge .documentStart
  else if atStart && startsMarker '.' lexer.cursor.rest then lexer.takeEdge .documentEnd
  else if c == '[' then lexer.takeFlowStart .flowSequenceStart
  else if c == '\x7b' then lexer.takeFlowStart .flowMappingStart
  else if c == ']' then lexer.takeFlowEnd .flowSequenceEnd
  else if c == '\x7d' then lexer.takeFlowEnd .flowMappingEnd
  else if c == ',' then lexer.takeFlowEntry
  else if c == '-' && endsWord next then lexer.takeBlockEntry
  else if c == '?' && (lexer.inFlow || endsWord next) then lexer.takeKey
  else if c == ':' && (lexer.inFlow || endsWord next) then lexer.takeValue
  else if c == '*' then lexer.takeName .reference
  else if c == '&' then lexer.takeName .anchor
  else if c == '!' then lexer.takeTag
  else if c == '|' && !lexer.inFlow then lexer.takeBlockScalar .literal
  else if c == '>' && !lexer.inFlow then lexer.takeBlockScalar .folded
  else if c == '\x27' then lexer.takeQuoted readSingle
  else if c == '\x22' then lexer.takeQuoted readDouble
  else if startsPlain lexer.inFlow c next then lexer.takePlain
  else none

/-- Passes over what stands before the next token, and closes the blocks that end there. -/
def advance (lexer : Lexer) : Option Lexer := do
  let (keyAllowed, cursor) := skipGap lexer.inFlow lexer.keyAllowed false lexer.cursor.line
    lexer.cursor.column lexer.cursor.rest
  let lexer ← { lexer with keyAllowed, cursor }.dropStaleKeys
  return lexer.closeBlocks (lexer.cursor.column < ·)

/-- Takes the tokens of the rest of a text, each of which has at least one character. -/
def takeAll : Nat → Lexer → Option (List Token)
  | 0, _ => none
  | fuel + 1, lexer => do
    let lexer ← lexer.advance
    match lexer.cursor.rest with
    | [] => lexer.closeAll.map (·.tokens.toList)
    | c :: _ => takeAll fuel (← lexer.takeFrom c)

end Lexer

/-- The tokens of a text, if it has only characters that are allowed and no faults. -/
def tokens (text : String) : Option (List Token) :=
  if text.toList.all isAllowed then
    let text := unifyBreaks text.toList
    Lexer.takeAll (text.length + 1) (.start text)
  else none

end TaskEngine.Yaml
