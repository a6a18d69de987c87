import TaskEngine.Json.Value

/-!
# Text of values

The compact text of a value: no blanks, fields in the order in which they stand.
Quotes, backslashes and control characters are escaped, everything else stands for
itself.

## Main definitions

* `Value.chars`, `Value.text` — the text of a value.
* `Value.display` — a text as it is, any other value as its text.
-/

namespace TaskEngine

/-- A hexadecimal digit, in small letters. -/
def hexDigit (n : Nat) : Char := Nat.digitChar n

/-- A character inside a quoted text. -/
def escapeChar (c : Char) : List Char :=
  if c = '\x22' then ['\\', '\x22']
  else if c = '\\' then ['\\', '\\']
  else if c = '\x08' then ['\\', 'b']
  else if c = '\x0c' then ['\\', 'f']
  else if c = '\n' then ['\\', 'n']
  else if c = '\r' then ['\\', 'r']
  else if c = '\t' then ['\\', 't']
  else if c.toNat < 0x20 then
    ['\\', 'u', '0', '0', hexDigit (c.toNat / 16), hexDigit (c.toNat % 16)]
  else [c]

/-- A quoted text. -/
def quoted (text : List Char) : List Char := '\x22' :: text.flatMap escapeChar ++ ['\x22']

namespace Value

mutual

/-- The characters of the text of a value. -/
def chars : Value → List Char
  | .null => ['n', 'u', 'l', 'l']
  | .bool true => ['t', 'r', 'u', 'e']
  | .bool false => ['f', 'a', 'l', 's', 'e']
  | .number n => n.text
  | .string text => quoted text.toList
  | .array [] => ['[', ']']
  | .array (item :: items) => '[' :: (chars item ++ itemsChars items)
  | .object [] => ['\x7b', '\x7d']
  | .object ((key, value) :: fields) =>
    '\x7b' :: (quoted key.toList ++ ':' :: (chars value ++ fieldsChars fields))

/-- The items of a list after the first, and its end. -/
def itemsChars : List Value → List Char
  | [] => [']']
  | item :: items => ',' :: (chars item ++ itemsChars items)

/-- The fields of an object after the first, and its end. -/
def fieldsChars : List (String × Value) → List Char
  | [] => ['\x7d']
  | (key, value) :: fields =>
    ',' :: (quoted key.toList ++ ':' :: (chars value ++ fieldsChars fields))

end

/-- The text of a value. -/
def text (value : Value) : String := String.ofList value.chars

/-- A text as it is, and any other value as its text. -/
def display : Value → String
  | .string text => text
  | value => value.text

end Value

end TaskEngine
