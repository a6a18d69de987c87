import TaskEngine.Failure
import TaskEngine.Json.Printer
import TaskEngine.OrderedMap
import TaskEngine.Text.Space

/-!
# Options

Options are an ordered map of values.  A task reads them by kind: as a number, a truth
value or a list, each of which may also be written as a text.

## Main definitions

* `Options` — the options of a task.
* `Options.merge` — configured options under overriding ones.
* `Options.number?`, `Options.flag?`, `Options.list` — typed access.
* `numberValue` — the value of a number, an integer where possible.
-/

namespace TaskEngine

/-- The options of a task. -/
abbrev Options := OrderedMap Value

/-- Why an option cannot be read. -/
inductive OptionError
  /-- The value is no finite number. -/
  | notNumber (key : String) (value : Value)
  /-- The value is no truth value. -/
  | notBoolean (key : String) (value : Value)

namespace OptionError

/-- The message of an error.  A text that is no truth value is shown as it was compared:
trimmed and in small letters. -/
def message : OptionError → String
  | .notNumber key value => s!"option '{key}' must be a number, got " ++ value.text
  | .notBoolean key (.string text) =>
    s!"option '{key}' must be a boolean, got '" ++ asciiLower (trimSpace text) ++ "'"
  | .notBoolean key value => s!"option '{key}' must be a boolean, got " ++ value.text

/-- The failure of a step that reads an unreadable option. -/
def failure (error : OptionError) : Failure := Failure.ofMessage error.message

end OptionError

/-- The texts that are read as true. -/
def trueWords : List String := ["true", "yes", "y", "1", "on"]

/-- The texts that are read as false. -/
def falseWords : List String := ["false", "no", "n", "0", "off", ""]

/-- The value of a number: an integer if it is one of less than `2 ^ 63`, null if it is not
finite. -/
def numberValue (x : Binary64) : Value :=
  if x.isIntegral && decide (x.truncate.natAbs < 0x8000000000000000) then .ofInt x.truncate
  else .ofBinary64 x

/-- The parts of a text between commas. -/
def commaParts : List Char → List (List Char)
  | [] => [[]]
  | c :: text =>
    if c = ',' then [] :: commaParts text
    else match commaParts text with
      | [] => [[c]]
      | part :: parts => (c :: part) :: parts

namespace Options

/-- Configured options, if there are any, under overriding ones. -/
def merge (configured : Option Options) (overrides : Options) : Options :=
  (configured.getD ∅).extend overrides

/-- The number that a value stands for; a blank text stands for none, and a value without a
finite number is refused. -/
def numberOf (key : String) (value : Value) : Except OptionError (Option Binary64) :=
  let finite (parsed : Option Binary64) : Except OptionError (Option Binary64) :=
    match parsed with
    | some x => if x.isFinite then .ok (some x) else .error (.notNumber key value)
    | none => .error (.notNumber key value)
  match value with
  | .null => .ok none
  | .number n => finite (some n.toBinary64)
  | .string text =>
    let trimmed := trimSpace text
    if trimmed = "" then .ok none else finite (Binary64.ofText? trimmed)
  | .bool flag => .ok (some (if flag then .one else .zero false))
  | _ => .error (.notNumber key value)

/-- The number that an option stands for, if it is set. -/
def number? (options : Options) (key : String) : Except OptionError (Option Binary64) :=
  match options.get? key with
  | none => .ok none
  | some value => numberOf key value

/-- The truth value that an option stands for, if it is set. -/
def flag? (options : Options) (key : String) : Except OptionError (Option Bool) :=
  match options.get? key with
  | none | some .null => .ok none
  | some (.bool flag) => .ok (some flag)
  | some (.number n) => .ok (some (!n.toBinary64.isZero))
  | some (.string text) =>
    let written := asciiLower (trimSpace text)
    if written ∈ trueWords then .ok (some true)
    else if written ∈ falseWords then .ok (some false)
    else .error (.notBoolean key (.string text))
  | some value => .error (.notBoolean key value)

/-- The texts that an option lists, be it a list or a text with commas. -/
def list (options : Options) (key : String) : List String :=
  match options.get? key with
  | some (.array items) => items.map Value.display
  | some (.string text) =>
    ((commaParts text.toList).map fun part => trimSpace (String.ofList part)).filter (· ≠ "")
  | _ => []

end Options

end TaskEngine
