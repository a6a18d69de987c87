import TaskEngine.Text.Radix
import TaskEngine.Yaml.Cursor

/-!
# Texts that go over several lines

The text of a scalar may go on over line breaks.  A single break between two lines is
read as a space, and of several the first is dropped; a separator of Unicode is kept.
Blanks around line breaks are dropped.

## Main definitions

* `Between` — what stands between two pieces of a text, and what it is read as.
* `readPlain` — a text without quotes.
* `readSingle`, `readDouble` — a text between quotes.
* `Chomping`, `BlockHeader`, `readBlock` — the lines of an indented text.
-/

namespace TaskEngine.Yaml

/-- What stands between two pieces of a text. -/
inductive Between
  /-- Blanks on one line, perhaps none. -/
  | blanks (found : List Char)
  /-- Line breaks; the first counts for nothing where a backslash hides it. -/
  | breaks (first : Option Char) (more : List Char)

namespace Between

/-- Nothing. -/
def nothing : Between := blanks []

/-- What stands between with one more blank. -/
def addBlank (c : Char) : Between → Between
  | blanks found => blanks (found ++ [c])
  | breaks first more => breaks first more

/-- What stands between with one more line break. -/
def addBreak (c : Char) : Between → Between
  | blanks _ => breaks (some c) []
  | breaks first more => breaks first (more ++ [c])

/-- Whether a new line starts behind it. -/
def startsLine : Between → Bool
  | blanks _ => false
  | breaks .. => true

/-- Whether there is anything. -/
def isGap : Between → Bool
  | blanks found => !found.isEmpty
  | breaks .. => true

/-- What it is read as. -/
def text : Between → List Char
  | blanks found => found
  | breaks first more =>
    if first = some '\n' then if more.isEmpty then [' '] else more
    else first.toList ++ more

end Between

/-! ### Texts without quotes -/

/-- A text without quotes that has been read. -/
structure PlainText where
  /-- The text. -/
  text : List Char
  /-- Whether line breaks were passed over behind it. -/
  endsLine : Bool
  /-- The place behind it and the blanks that follow it. -/
  cursor : Cursor

/-- Whether a character ends or parts flow collections. -/
def isFlowIndicator (c : Char) : Bool :=
  c == ',' || c == '[' || c == ']' || c == '\x7b' || c == '\x7d'

/-- Whether a text without quotes ends before a character that follows no gap. -/
def endsPlain (inFlow : Bool) (c : Char) (next : Option Char) : Bool :=
  (c == ':' && endsWord next) || (inFlow && isFlowIndicator c)

/-- Whether a colon in a flow collection stands where it can mean nothing. -/
def isStrayColon (inFlow : Bool) (c : Char) (next : Option Char) : Bool :=
  inFlow && c == ':' && next.any fun d => isFlowIndicator d || d == '?'

/-- Whether what stands between ends a text without quotes, be it by what follows or, outside
flow collections, by a column below the least one. -/
def Between.endsPlain (inFlow : Bool) (least column : Nat) (text : List Char)
    (between : Between) : Bool :=
  between.isGap && ((column == 0 && startsEdge text) || text.head? == some '#' ||
    (!inFlow && decide (column < least)))

/-- Reads a text without quotes, whose lines start at a least column. -/
def readPlain (inFlow : Bool) (least : Nat) (between : Between) (line column : Nat) :
    List Char → Option PlainText
  | [] => some ⟨[], between.startsLine, ⟨[], line, column⟩⟩
  | c :: text =>
    if isBlank c then
      if c = '\t' ∧ between.startsLine ∧ column < least then none
      else readPlain inFlow least (between.addBlank c) line (column + 1) text
    else if isBreak c then readPlain inFlow least (between.addBreak c) (line + 1) 0 text
    else if between.endsPlain inFlow least column (c :: text) || endsPlain inFlow c text.head? then
      some ⟨[], between.startsLine, ⟨c :: text, line, column⟩⟩
    else if isStrayColon inFlow c text.head? then none
    else (readPlain inFlow least .nothing line (column + 1) text).map fun found =>
      { found with text := between.text ++ c :: found.text }

/-! ### Texts between quotes -/

/-- Puts a text before one that has been read. -/
def andThen (text : List Char) : Option (List Char × Cursor) → Option (List Char × Cursor) :=
  Option.map fun (found, cursor) => (text ++ found, cursor)

/-- Reads a text between single quotes behind the first of them.  Two quotes in a row are one
character. -/
def readSingle (between : Between) (line column : Nat) : List Char → Option (List Char × Cursor)
  | [] => none
  | '\x27' :: '\x27' :: text =>
    andThen (between.text ++ ['\x27']) (readSingle .nothing line (column + 2) text)
  | c :: text =>
    if isBlank c then readSingle (between.addBlank c) line (column + 1) text
    else if isBreak c then readSingle (between.addBreak c) (line + 1) 0 text
    else if column == 0 && startsEdge (c :: text) then none
    else if c = '\x27' then some (between.text, ⟨text, line, column + 1⟩)
    else andThen (between.text ++ [c]) (readSingle .nothing line (column + 1) text)

/-- The character that a backslash and a character stand for. -/
def shortEscape? (c : Char) : Option Char :=
  [('0', '\x00'), ('a', '\x07'), ('b', '\x08'), ('t', '\t'), ('\t', '\t'), ('n', '\n'),
    ('v', '\x0b'), ('f', '\x0c'), ('r', '\r'), ('e', '\x1b'), (' ', ' '), ('\x22', '\x22'),
    ('/', '/'), ('\\', '\\'), ('N', '\u0085'), ('_', '\u00a0'), ('L', '\u2028'),
    ('P', '\u2029')].lookup c

/-- The character that hexadecimal digits name. -/
def numberedChar? (digits : List Char) : Option Char :=
  (radixNumber? 16 digits).bind fun n => if n.isValidChar then some (Char.ofNat n) else none

/-- Reads a text between double quotes behind the first of them. -/
def readDouble (between : Between) (line column : Nat) : List Char → Option (List Char × Cursor)
  | [] => none
  | '\\' :: 'x' :: a :: b :: text =>
    (numberedChar? [a, b]).bind fun c =>
      andThen (between.text ++ [c]) (readDouble .nothing line (column + 4) text)
  | '\\' :: 'u' :: a :: b :: c :: d :: text =>
    (numberedChar? [a, b, c, d]).bind fun c =>
      andThen (between.text ++ [c]) (readDouble .nothing line (column + 6) text)
  | '\\' :: 'U' :: a :: b :: c :: d :: e :: f :: g :: h :: text =>
    (numberedChar? [a, b, c, d, e, f, g, h]).bind fun c =>
      andThen (between.text ++ [c]) (readDouble .nothing line (column + 10) text)
  | '\\' :: c :: text =>
    if isBreak c then andThen between.text (readDouble (.breaks none []) (line + 1) 0 text)
    else (shortEscape? c).bind fun c =>
      andThen (between.text ++ [c]) (readDouble .nothing line (column + 2) text)
  | c :: text =>
    if isBlank c then readDouble (between.addBlank c) line (column + 1) text
    else if isBreak c then readDouble (between.addBreak c) (line + 1) 0 text
    else if c = '\\' ∨ (column == 0 && startsEdge (c :: text)) then none
    else if c = '\x22' then some (between.text, ⟨text, line, column + 1⟩)
    else andThen (between.text ++ [c]) (readDouble .nothing line (column + 1) text)

/-! ### Indented texts -/

/-- What becomes of the line breaks at the end of an indented text. -/
inductive Chomping
  /-- All are dropped. -/
  | strip
  /-- The first is kept. -/
  | clip
  /-- All are kept. -/
  | keep

/-- How an indented text is read. -/
structure BlockHeader where
  /-- Whether line breaks are folded. -/
  folded : Bool
  /-- What becomes of the line breaks at the end. -/
  chomping : Chomping
  /-- How much deeper than the node around it the text stands, if that is written. -/
  increment : Option Nat

/-- The sign that tells what becomes of the line breaks at the end. -/
def chomping? : List Char → Option (Chomping × List Char)
  | '-' :: text => some (.strip, text)
  | '+' :: text => some (.keep, text)
  | _ => none

/-- A digit that tells how deep the text stands, which is at least one; none of both if there
is no digit. -/
def increment? : List Char → Option (Option Nat × List Char)
  | [] => some (none, [])
  | c :: text =>
    match radixDigit? 10 c with
    | some 0 => none
    | some n => some (some n, text)
    | none => some (none, c :: text)

/-- Reads the header of an indented text, and the rest of its line. -/
def readHeader (folded : Bool) (text : List Char) : Option (BlockHeader × List Char) :=
  match chomping? text with
  | some (chomping, text) =>
    (increment? text).map fun (increment, text) => (⟨folded, chomping, increment⟩, text)
  | none =>
    (increment? text).map fun (increment, text) =>
      match increment, chomping? text with
      | some _, some (chomping, text) => (⟨folded, chomping, increment⟩, text)
      | _, _ => (⟨folded, .clip, increment⟩, text)

/-- The rest of a line on which nothing but blanks and a comment may follow: the text behind
its break. -/
def finishLine (text : List Char) : Option (List Char) :=
  match text.dropWhile isBlank with
  | '#' :: comment => some ((comment.dropWhile (!isBreak ·)).drop 1)
  | c :: text => if isBreak c then some text else none
  | [] => some []

/-- The column of the first line that is not empty, or of a deeper one before it; a tab in
front of it is a fault. -/
def deepest (deepestYet column : Nat) : List Char → Option Nat
  | [] => some (max deepestYet column)
  | c :: text =>
    if c = ' ' then deepest deepestYet (column + 1) text
    else if c = '\t' then none
    else if isBreak c then deepest (max deepestYet column) 0 text
    else some (max deepestYet column)

/-- How far an indented text has been read. -/
inductive BlockPlace
  /-- Inside a line, which starts with a blank or not. -/
  | inLine (blankStart : Bool)
  /-- Behind the first break and more breaks that follow a line. -/
  | between (blankStart : Bool) (first : Option Char) (more : List Char)

/-- The line breaks that end an indented text. -/
def Chomping.ending (chomping : Chomping) : BlockPlace → List Char
  | .inLine _ => []
  | .between _ first more =>
    match chomping with
    | .strip => []
    | .clip => first.toList
    | .keep => first.toList ++ more

/-- The line breaks between two lines.  They are folded unless one of the lines starts with a
blank. -/
def BlockHeader.joint (header : BlockHeader) (blankStart : Bool) (first : Option Char)
    (more : List Char) (c : Char) : List Char :=
  if header.folded && first == some '\n' && !blankStart && !isBlank c then
    if more.isEmpty then [' '] else more
  else first.toList ++ more

/-- Reads the lines of an indented text that stands at a column. -/
def readBlock (header : BlockHeader) (indent : Nat) (place : BlockPlace) (line column : Nat) :
    List Char → Option (List Char × Cursor)
  | [] => some (header.chomping.ending place, ⟨[], line, column⟩)
  | c :: text =>
    match place with
    | .inLine blankStart =>
      if isBreak c then readBlock header indent (.between blankStart (some c) []) (line + 1) 0 text
      else andThen [c] (readBlock header indent (.inLine blankStart) line (column + 1) text)
    | .between blankStart first more =>
      if isBreak c then
        readBlock header indent (.between blankStart first (more ++ [c])) (line + 1) 0 text
      else if column < indent then
        if c = ' ' then readBlock header indent place line (column + 1) text
        else if c = '\t' then none
        else some (header.chomping.ending place, ⟨c :: text, line, column⟩)
      else
        andThen (header.joint blankStart first more c ++ [c])
          (readBlock header indent (.inLine (isBlank c)) line (column + 1) text)

end TaskEngine.Yaml
