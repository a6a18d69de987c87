import TaskEngine.Text.Radix
import TaskEngine.Text.Utf8
import TaskEngine.Yaml.Cursor

/-!
# Anchors, tags and directives

A node may have a name by which others refer to it, and a tag that tells its kind.  A
tag is written in full or as a handle and a suffix; directives at the start of a
document say what handles stand for.

## Main definitions

* `readName` — the name of an anchor.
* `TagText`, `readTag` — a tag as written.
* `Directive`, `readDirective` — a directive.
* `TagHandles`, `TagText.resolve` — what handles stand for, and a tag in full.
-/

namespace TaskEngine.Yaml

/-- Whether a character may stand in a name. -/
def isNameChar (c : Char) : Bool :=
  ('0' ≤ c && c ≤ '9') || ('A' ≤ c && c ≤ 'Z') || ('a' ≤ c && c ≤ 'z') || c == '_' || c == '-'

/-- Whether the name of an anchor may end before a character. -/
def endsName (c : Option Char) : Bool :=
  endsWord c || c.any ("?:,]\x7d%@\x60".toList.contains ·)

/-- Reads a name behind the sign that announces it. -/
def readName (cursor : Cursor) : Option (List Char × Cursor) :=
  let (name, after) := cursor.span isNameChar
  if name.isEmpty || !endsName (after.peek? 0) then none else some (name, after)

/-! ### Tags -/

/-- Whether a character may stand for itself in a tag.  Brackets and commas may do so only
where the tag is written in full. -/
def isTagChar (inFull : Bool) (c : Char) : Bool :=
  isNameChar c || ";/?:@&=+$.!~*\x27()".toList.contains c ||
    (inFull && (c == ',' || c == '[' || c == ']'))

/-- How many bytes follow one that starts a character. -/
def followers? (first : Nat) : Option Nat :=
  if first < 0x80 then some 0
  else if first < 0xC0 then none
  else if first < 0xE0 then some 1
  else if first < 0xF0 then some 2
  else if first < 0xF8 then some 3
  else none

/-- Reads the bytes of a tag, some of which are written as a percent sign and two digits; so
many of these have to follow to complete a character. -/
def readTagBytes (inFull : Bool) (missing : Nat) : List Char → Option (Bytes × List Char)
  | '%' :: a :: b :: text =>
    (radixNumber? 16 [a, b]).bind fun n =>
      let missing? := match missing with
        | 0 => followers? n
        | more + 1 => if n / 0x40 = 2 then some more else none
      missing?.bind fun missing =>
        (readTagBytes inFull missing text).map fun (bytes, after) => (byte n :: bytes, after)
  | [] => if missing = 0 then some ([], []) else none
  | c :: text =>
    if c = '%' ∨ missing ≠ 0 then none
    else if isTagChar inFull c then
      (readTagBytes inFull 0 text).map fun (bytes, after) => (encodeChar c ++ bytes, after)
    else some ([], c :: text)

/-- The bytes of a tag up to the first zero. -/
def untilZero (bytes : Bytes) : Bytes := bytes.takeWhile (· ≠ 0)

/-- Reads bytes of a tag, of which there has to be at least one. -/
def readTagPart (inFull : Bool) (text : List Char) : Option (Bytes × List Char) :=
  (readTagBytes inFull 0 text).bind fun (bytes, after) =>
    if bytes.isEmpty then none else some (untilZero bytes, after)

/-- A tag as written. -/
structure TagText where
  /-- The handle, or none where the tag is written in full. -/
  handle : Option (List Char)
  /-- The rest of the tag. -/
  suffix : Bytes
  deriving DecidableEq

/-- Reads a tag that starts with an exclamation mark behind that mark. -/
def readTagText (text : List Char) : Option (TagText × List Char) :=
  match text with
  | '<' :: text =>
    match readTagPart true text with
    | some (suffix, '>' :: after) => some (⟨none, suffix⟩, after)
    | _ => none
  | text =>
    let name := text.takeWhile isNameChar
    match text.drop name.length with
    | '!' :: rest =>
      (readTagPart false rest).map fun (suffix, after) =>
        (⟨some ('!' :: (name ++ ['!'])), suffix⟩, after)
    | _ =>
      (readTagBytes false 0 text).map fun (bytes, after) =>
        match untilZero bytes with
        | [] => (⟨none, encodeChar '!'⟩, after)
        | suffix => (⟨some ['!'], suffix⟩, after)

/-- Reads a tag, behind which a word has to end. -/
def readTag (inFlow : Bool) (cursor : Cursor) : Option (TagText × Cursor) :=
  (readTagText (cursor.rest.drop 1)).bind fun (tag, after) =>
    if endsWord after.head? || (inFlow && after.head? == some ',') then
      some (tag, cursor.skipTo after)
    else none

/-! ### Directives -/

/-- A directive. -/
inductive Directive
  /-- The version of the notation. -/
  | version
  /-- What a handle stands for. -/
  | handle (name : List Char) (start : Bytes)
  deriving DecidableEq

/-- Reads a part of a version: up to nine digits. -/
def readVersionPart (text : List Char) : Option (Nat × List Char) :=
  let digits := text.takeWhile fun c => '0' ≤ c && c ≤ '9'
  if digits.isEmpty || 9 < digits.length then none
  else (radixNumber? 10 digits).map (·, text.drop digits.length)

/-- Reads a version; only the versions 1.1 and 1.2 are known. -/
def readVersion (text : List Char) : Option (List Char) :=
  match readVersionPart text with
  | some (1, '.' :: text) =>
    (readVersionPart text).bind fun (minor, after) =>
      if minor = 1 ∨ minor = 2 then some after else none
  | _ => none

/-- Reads a handle of tags: a name between exclamation marks, or a single mark. -/
def readHandle : List Char → Option (List Char × List Char)
  | '!' :: text =>
    let name := text.takeWhile isNameChar
    match text.drop name.length with
    | '!' :: rest => some ('!' :: (name ++ ['!']), rest)
    | rest => if name.isEmpty then some (['!'], rest) else none
  | _ => none

/-- Reads what a directive says, behind its name. -/
def readDirectiveBody (name : List Char) (text : List Char) : Option (Directive × List Char) :=
  let text := text.dropWhile isBlank
  if name = "YAML".toList then (readVersion text).map (.version, ·)
  else if name = "TAG".toList then
    (readHandle text).bind fun (handle, text) =>
      if text.head?.any isBlank then
        (readTagPart true (text.dropWhile isBlank)).bind fun (start, after) =>
          if endsWord after.head? then some (.handle handle start, after) else none
      else none
  else none

/-- Reads a directive behind its percent sign: the directive, and what follows it on its line. -/
def readDirective (text : List Char) : Option (Directive × List Char) :=
  let name := text.takeWhile isNameChar
  let after := text.drop name.length
  if name.isEmpty || !endsWord after.head? then none else readDirectiveBody name after

/-! ### Handles -/

/-- What the handles of tags stand for. -/
abbrev TagHandles := List (List Char × Bytes)

/-- The start of the tags of the notation itself. -/
def coreStart : Bytes := encodeText "tag:yaml.org,2002:"

/-- The handles that need no directive. -/
def defaultHandles : TagHandles := [(['!'], encodeChar '!'), (['!', '!'], coreStart)]

/-- A tag in full, if its handle is known. -/
def TagText.resolve (handles : TagHandles) (tag : TagText) : Option Bytes :=
  match tag.handle with
  | none => some tag.suffix
  | some handle => (handles.lookup handle).map (· ++ tag.suffix)

end TaskEngine.Yaml
