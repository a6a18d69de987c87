import TaskEngine.Json.Number

/-!
# Values

The values of options, checks and results: null, booleans, numbers, texts, lists
and objects.

Objects are written as lists of fields.  Where a value is data its fields are in
ascending order of their keys and no key occurs twice; `Value.canonical` brings a
value into that form.  Where a value is a document on its way to be written, its
fields stand in the order in which they are to be written.

## Main definitions

* `Value` — the values.
* `Value.same` — equality, numerical on floats.
* `Value.canonical` — ascending keys, the last of several fields of one key.
* `Value.isTruthy` — whether a value counts as set.
-/

namespace TaskEngine

/-- A value. -/
inductive Value
  | null
  | bool (flag : Bool)
  | number (n : Number)
  | string (text : String)
  | array (items : List Value)
  | object (fields : List (String × Value))

namespace Value

instance : Inhabited Value := ⟨.null⟩

/-- The value of an integer. -/
def ofInt (i : Int) : Value := ((Number.ofInt? i).map number).getD null

/-- The value of a natural number. -/
def ofNat (n : Nat) : Value := ofInt n

/-- The value of a binary64 number, null if it is not finite. -/
def ofBinary64 (x : Binary64) : Value := ((Number.ofBinary64? x).map number).getD null

/-- The text, or null. -/
def ofText? : Option String → Value
  | none => null
  | some text => string text

/-- The text of a value that is one. -/
def text? : Value → Option String
  | .string text => some text
  | _ => none

mutual

/-- Equality of values; floats are compared numerically. -/
def same : Value → Value → Bool
  | .null, .null => true
  | .bool a, .bool b => a == b
  | .number a, .number b => a.same b
  | .string a, .string b => a == b
  | .array a, .array b => sameItems a b
  | .object a, .object b => sameFields a b
  | _, _ => false

/-- Equality of lists of values. -/
def sameItems : List Value → List Value → Bool
  | [], [] => true
  | a :: as, b :: bs => same a b && sameItems as bs
  | _, _ => false

/-- Equality of lists of fields. -/
def sameFields : List (String × Value) → List (String × Value) → Bool
  | [], [] => true
  | (k, a) :: as, (l, b) :: bs => k == l && same a b && sameFields as bs
  | _, _ => false

end

/-- Puts a field into a list of fields with ascending keys, in place of one with the same key. -/
def insertField (key : String) (value : Value) : List (String × Value) → List (String × Value)
  | [] => [(key, value)]
  | (k, v) :: fields =>
    if key < k then (key, value) :: (k, v) :: fields
    else if key = k then (key, value) :: fields
    else (k, v) :: insertField key value fields

/-- An object with the given fields: ascending keys, the last of several fields of one key. -/
def objectOf (fields : List (String × Value)) : Value :=
  .object (fields.foldl (fun done (key, value) => insertField key value done) [])

mutual

/-- The value with the fields of all its objects in ascending order of their keys. -/
def canonical : Value → Value
  | .array items => .array (canonicalItems items)
  | .object fields => objectOf (canonicalFields fields)
  | value => value

/-- The canonical forms of a list of values. -/
def canonicalItems : List Value → List Value
  | [] => []
  | item :: items => canonical item :: canonicalItems items

/-- The canonical forms of the values of a list of fields. -/
def canonicalFields : List (String × Value) → List (String × Value)
  | [] => []
  | (key, value) :: fields => (key, canonical value) :: canonicalFields fields

end

/-- The value of a field of an object. -/
def field? (key : String) : Value → Option Value
  | .object fields => fields.lookup key
  | _ => none

/-- Whether a value counts as set: null, false, zero, and empty texts, lists and objects do
not. -/
def isTruthy : Value → Bool
  | .null => false
  | .bool flag => flag
  | .number n => !n.toBinary64.isZero
  | .string text => text != ""
  | .array items => !items.isEmpty
  | .object fields => !fields.isEmpty

end Value

end TaskEngine
