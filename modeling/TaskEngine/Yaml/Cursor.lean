/-!
# Places in a YAML text

The line and the column of a character decide what it means, so a text is read by a
cursor that counts both.  The line breaks that mean the same are all made line feeds
before; the two separators of Unicode break lines too, but stay what they are.

## Main definitions

* `isAllowed`, `isBlank`, `isBreak` — classes of characters.
* `unifyBreaks` — a text with line feeds for line breaks.
* `Cursor` — a place in a text.
* `skipGap` — the place of the next token.
-/

namespace TaskEngine.Yaml

/-- Whether a character may stand in a text. -/
def isAllowed (c : Char) : Bool :=
  let n := c.toNat
  n == 0x09 || n == 0x0A || n == 0x0D || (0x20 ≤ n && n ≤ 0x7E) || n == 0x85 ||
    (0xA0 ≤ n && n ≤ 0xD7FF) || (0xE000 ≤ n && n ≤ 0xFFFD) || 0x10000 ≤ n

/-- Whether a character parts words on one line. -/
def isBlank (c : Char) : Bool := c == ' ' || c == '\t'

/-- Whether a character ends a line. -/
def isBreak (c : Char) : Bool := c == '\n' || c == '\u2028' || c == '\u2029'

/-- Whether a character, if there is one, belongs to no word. -/
def endsWord : Option Char → Bool
  | none => true
  | some c => isBlank c || isBreak c

/-- The text with line feeds for all line breaks that mean the same. -/
def unifyBreaks : List Char → List Char
  | [] => []
  | '\r' :: '\n' :: text => '\n' :: unifyBreaks text
  | c :: text => (if c = '\r' ∨ c = '\u0085' then '\n' else c) :: unifyBreaks text

/-- The mark that may stand at the beginning of a line and means nothing. -/
def byteOrderMark : Char := '\ufeff'

/-- Whether a text starts with three of a character and a word ends there. -/
def startsMarker (mark : Char) : List Char → Bool
  | a :: b :: c :: text => a == mark && b == mark && c == mark && endsWord text.head?
  | _ => false

/-- Whether a text starts like a line between documents. -/
def startsEdge (text : List Char) : Bool := startsMarker '-' text || startsMarker '.' text

/-- A place in a text. -/
structure Cursor where
  /-- The text from here. -/
  rest : List Char
  /-- The number of the line, from zero. -/
  line : Nat
  /-- The number of characters before the place on its line. -/
  column : Nat

namespace Cursor

/-- The place some characters further on the line. -/
def skip (cursor : Cursor) (count : Nat) : Cursor :=
  ⟨cursor.rest.drop count, cursor.line, cursor.column + count⟩

/-- The place on the same line from which a text goes on. -/
def skipTo (cursor : Cursor) (rest : List Char) : Cursor :=
  ⟨rest, cursor.line, cursor.column + (cursor.rest.length - rest.length)⟩

/-- The place behind a line break. -/
def nextLine (cursor : Cursor) : Cursor := ⟨cursor.rest.drop 1, cursor.line + 1, 0⟩

/-- The characters of a class, and the place behind them. -/
def span (inClass : Char → Bool) (cursor : Cursor) : List Char × Cursor :=
  let found := cursor.rest.takeWhile inClass
  (found, cursor.skip found.length)

/-- The character some characters further on. -/
def peek? (cursor : Cursor) (count : Nat) : Option Char := cursor.rest[count]?

end Cursor

/-- Passes over blanks, comments and line breaks: the place behind them, and whether a key
may stand there.  A tab counts as blank inside flow collections and where no key may stand;
outside flow collections a key may stand on each new line. -/
def skipGap (inFlow : Bool) (keyAllowed inComment : Bool) (line column : Nat) :
    List Char → Bool × Cursor
  | [] => (keyAllowed, ⟨[], line, column⟩)
  | c :: text =>
    if isBreak c then skipGap inFlow (keyAllowed || !inFlow) false (line + 1) 0 text
    else if inComment || c == ' ' || (c == '\t' && (inFlow || !keyAllowed)) ||
        (c == byteOrderMark && column == 0) then
      skipGap inFlow keyAllowed inComment line (column + 1) text
    else if c = '#' then skipGap inFlow keyAllowed true line (column + 1) text
    else (keyAllowed, ⟨c :: text, line, column⟩)

end TaskEngine.Yaml
