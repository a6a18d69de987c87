import TaskEngine.Json.Token
import TaskEngine.Json.Value

/-!
# Trees of JSON text

A text is read into a tree that keeps what the text says: numbers as written,
fields in their order and with their repetitions.  Where the text breaks off or
goes wrong, the tree ends there, so whoever reads the tree in the order of the text
meets the faults of the text in that order too.

## Main definitions

* `Tree` — the trees; `broken` marks the place of a fault.
* `parse` — the tree of a text, and whether more text follows it.
* `Tree.ofValue` — the tree of the text of a value.
-/

namespace TaskEngine.Json

open TaskEngine

/-- A JSON text as read. -/
inductive Tree
  | null
  | bool (flag : Bool)
  | number (lexeme : NumberLexeme)
  /-- A quoted text, or none if it holds half of a surrogate pair. -/
  | quoted (text : Option (List Char))
  /-- The items of a list, and whether the list is closed. -/
  | array (items : List Tree) (closed : Bool)
  /-- The fields of an object, and whether the object is closed. -/
  | object (fields : List (Option (List Char) × Tree)) (closed : Bool)
  /-- The text goes wrong where a value should stand. -/
  | broken

/-- A tree, and whether something other than blanks follows it. -/
structure Document where
  /-- The tree. -/
  tree : Tree
  /-- Whether something follows. -/
  trailing : Bool

/-- A list or object that is not closed yet, with what it holds so far, the latest first. -/
inductive Open
  | array (items : List Tree)
  /-- An object whose next value belongs to the given key. -/
  | object (fields : List (Option (List Char) × Tree)) (key : Option (List Char))

/-- What may come next. -/
inductive Expect
  /-- A value; also the end of the innermost list, if that is still empty. -/
  | value (first : Bool)
  /-- A comma or the end of the innermost list or object. -/
  | separator
  /-- A key; also the end of the object, if that is still empty. -/
  | key (fields : List (Option (List Char) × Tree))
  /-- The colon after a key. -/
  | colon

/-- The tree of a text that goes wrong inside a value of the innermost open list or object. -/
def breakOff (tree : Tree) : List Open → Tree
  | [] => tree
  | .array items :: rest => breakOff (.array (tree :: items).reverse false) rest
  | .object fields key :: rest => breakOff (.object ((key, tree) :: fields).reverse false) rest

/-- The tree of a text that goes wrong behind the values of the innermost open list or
object. -/
def breakAfter : List Open → Tree
  | [] => .broken
  | .array items :: rest => breakOff (.array items.reverse false) rest
  | .object fields _ :: rest => breakOff (.object fields.reverse false) rest

/-- The tree of a text that goes wrong where the given thing is expected. -/
def fault (stack : List Open) : Expect → Tree
  | .value _ => breakOff .broken stack
  | .separator => breakAfter stack
  | .key fields => breakOff (.object fields.reverse false) stack
  | .colon => breakOff .broken stack

/-- How far a text has been read. -/
inductive Reading
  /-- Inside a value. -/
  | going (stack : List Open) (expect : Expect)
  /-- Behind a complete value. -/
  | whole (tree : Tree)
  /-- The text went wrong, or goes on behind a complete value. -/
  | ended (document : Document)

namespace Reading

/-- Reads on behind a complete value. -/
def complete (stack : List Open) (tree : Tree) : Reading :=
  match stack with
  | [] => .whole tree
  | .array items :: stack => .going (.array (tree :: items) :: stack) .separator
  | .object fields key :: stack => .going (.object ((key, tree) :: fields) key :: stack) .separator

/-- Takes a token where a value is expected. -/
def stepValue (stack : List Open) (first : Bool) : Token → Reading
  | .null => complete stack .null
  | .bool flag => complete stack (.bool flag)
  | .number lexeme => complete stack (.number lexeme)
  | .quoted text => complete stack (.quoted text)
  | .beginArray => .going (.array [] :: stack) (.value true)
  | .beginObject => .going stack (.key [])
  | .endArray =>
    match first, stack with
    | true, .array [] :: stack => complete stack (.array [] true)
    | _, _ => .ended ⟨fault stack (.value first), false⟩
  | _ => .ended ⟨fault stack (.value first), false⟩

/-- Takes a token behind a value of a list or object. -/
def stepSeparator (stack : List Open) (token : Token) : Reading :=
  match token, stack with
  | .comma, .array items :: stack => .going (.array items :: stack) (.value false)
  | .comma, .object fields _ :: stack => .going stack (.key fields)
  | .endArray, .array items :: stack => complete stack (.array items.reverse true)
  | .endObject, .object fields _ :: stack => complete stack (.object fields.reverse true)
  | _, _ => .ended ⟨fault stack .separator, false⟩

/-- Takes a token where a key is expected. -/
def stepKey (stack : List Open) (fields : List (Option (List Char) × Tree)) : Token → Reading
  | .quoted key => .going (.object fields key :: stack) .colon
  | .endObject =>
    if fields.isEmpty then complete stack (.object [] true)
    else .ended ⟨fault stack (.key fields), false⟩
  | _ => .ended ⟨fault stack (.key fields), false⟩

/-- Takes a token where a colon is expected. -/
def stepColon (stack : List Open) : Token → Reading
  | .colon => .going stack (.value false)
  | _ => .ended ⟨fault stack .colon, false⟩

/-- Takes the next token. -/
def step : Reading → Token → Reading
  | .going stack (.value first), token => stepValue stack first token
  | .going stack .separator, token => stepSeparator stack token
  | .going stack (.key fields), token => stepKey stack fields token
  | .going stack .colon, token => stepColon stack token
  | .whole tree, _ => .ended ⟨tree, true⟩
  | .ended document, _ => .ended document

/-- The document at the end of the text. -/
def finish : Reading → Document
  | .going stack expect => ⟨fault stack expect, false⟩
  | .whole tree => ⟨tree, false⟩
  | .ended document => document

end Reading

/-- The tree of a text. -/
def parse (text : String) : Document :=
  ((tokens text.toList).foldl Reading.step (.going [] (.value false))).finish

/-! ### Trees of values -/

/-- The digits of an integer or float, as they are written. -/
def lexemeOf (n : Number) : NumberLexeme :=
  match lexNumber n.text with
  | some (lexeme, _) => lexeme
  | none => ⟨false, ['0'], none, none⟩

mutual

/-- The tree of the text of a value. -/
def Tree.ofValue : Value → Tree
  | .null => .null
  | .bool flag => .bool flag
  | .number n => .number (lexemeOf n)
  | .string text => .quoted (some text.toList)
  | .array items => .array (Tree.ofItems items) true
  | .object fields => .object (Tree.ofFields fields) true

/-- The trees of the texts of values. -/
def Tree.ofItems : List Value → List Tree
  | [] => []
  | item :: items => Tree.ofValue item :: Tree.ofItems items

/-- The trees of the texts of fields. -/
def Tree.ofFields : List (String × Value) → List (Option (List Char) × Tree)
  | [] => []
  | (key, value) :: fields => (some key.toList, Tree.ofValue value) :: Tree.ofFields fields

end

end TaskEngine.Json
