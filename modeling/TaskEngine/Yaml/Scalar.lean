import TaskEngine.Document
import TaskEngine.Text.Utf8
import TaskEngine.Yaml.Tree

/-!
# Values of YAML scalars

A scalar without quotes and tag is what it looks like: nothing, a truth value, an
integer, a float, or else a text.  A tag of the notation itself says which of these it
has to be; a tag of its own, which starts with an exclamation mark, has no value.

## Main definitions

* `plainInteger?`, `plainFloat?` — the numbers of texts without quotes.
* `plainValue` — the value of a text without quotes.
* `isOwnTag` — whether a tag has no value.
* `scalarValue` — the value of a scalar.
-/

namespace TaskEngine.Yaml

/-- The words for nothing. -/
def nullWords : List String := ["null", "Null", "NULL", "~"]

/-- The words for true. -/
def trueWords : List String := ["true", "True", "TRUE"]

/-- The words for false. -/
def falseWords : List String := ["false", "False", "FALSE"]

/-- The words for infinity. -/
def infinityWords : List String := [".inf", ".Inf", ".INF"]

/-- The words for no number. -/
def nanWords : List String := [".nan", ".NaN", ".NAN"]

/-- The truth value of a word. -/
def plainFlag? (text : String) : Option Bool :=
  if text ∈ trueWords then some true else if text ∈ falseWords then some false else none

/-! ### Integers -/

/-- Whether digits start with a zero that counts for nothing; they are no number then. -/
def hasLeadingZero (digits : List Char) : Bool :=
  1 < digits.length && digits.head? == some '0' && digits.all isDecimalDigit

/-- The number of digits behind a letter that tells their radix, or of decimal digits. -/
def magnitude? (text : List Char) : Option Nat :=
  let inRadix (radix : Nat) (digits : List Char) : Option Nat :=
    if digits.isEmpty then none else radixNumber? radix digits
  match text with
  | '0' :: 'x' :: digits => inRadix 16 digits
  | '0' :: 'o' :: digits => inRadix 8 digits
  | '0' :: 'b' :: digits => inRadix 2 digits
  | digits => if hasLeadingZero digits then none else inRadix 10 digits

/-- The integer that a text without quotes names, of any size. -/
def plainInteger? : List Char → Option Int
  | '+' :: text => (magnitude? text).map Int.ofNat
  | '-' :: text => (magnitude? text).map fun n => -(n : Int)
  | text => (magnitude? text).map Int.ofNat

/-- Whether an integer is one of 128 bits, signed or unsigned; larger ones are no integers. -/
def FitsDoubleWord (i : Int) : Prop :=
  -0x80000000000000000000000000000000 ≤ i ∧ i < 0x100000000000000000000000000000000

instance (i : Int) : Decidable (FitsDoubleWord i) := inferInstanceAs (Decidable (_ ∧ _))

/-- The value of a text that names an integer: there is none beyond the words. -/
def integerValue? (text : List Char) : Option (Except Fault Value) :=
  (plainInteger? text).bind fun i =>
    if FitsWord i then some (.ok (.ofInt i))
    else if FitsDoubleWord i then some (.error .malformed)
    else none

/-! ### Floats -/

/-- The number that a text without quotes names; decimals beyond all finite numbers are no
numbers. -/
def plainFloat? (text : String) : Option Binary64 :=
  let (signed, unsigned) := match text.toList with
    | '+' :: rest => (true, String.ofList rest)
    | _ => (false, text)
  let negative := text.toList.head? == some '-'
  let magnitude := if negative then String.ofList (text.toList.drop 1) else unsigned
  if signed && (unsigned.toList.head? == some '+' || unsigned.toList.head? == some '-') then none
  else if magnitude ∈ infinityWords then some (.infinite negative)
  else if text ∈ nanWords then some .nan
  else (Binary64.ofText? unsigned).filter (·.isFinite)

/-! ### Values -/

/-- The value of a text without quotes, with a way to make values of floats. -/
def plainValue (ofFloat : Binary64 → Value) (text : String) : Except Fault Value :=
  if text = "" ∨ text ∈ nullWords then .ok .null
  else match plainFlag? text with
    | some flag => .ok (.bool flag)
    | none => match integerValue? text.toList with
      | some value => value
      | none =>
        let (_, unsigned) := Binary64.splitSign text.toList
        match if hasLeadingZero unsigned then none else plainFloat? text with
        | some x => .ok (ofFloat x)
        | none => .ok (.string text)

/-- A value that has to be there. -/
def need {α : Type} : Option α → Except Fault α
  | some value => .ok value
  | none => .error .malformed

/-- The tag of the notation itself that has a name. -/
def coreTag (name : String) : Bytes := coreStart ++ encodeText name

/-- Whether a tag is the own one of some application. -/
def isOwnTag (tag : Option Bytes) : Bool :=
  tag.any fun bytes => bytes.head? == some (byte '!'.toNat) && (decode? bytes).isSome

/-- The value of a scalar, with a way to make values of floats. -/
def scalarValue (ofFloat : Binary64 → Value) (tag : Option Bytes) (style : ScalarStyle)
    (text : String) : Except Fault Value :=
  let untagged := if style = .plain then plainValue ofFloat text else .ok (.string text)
  match tag with
  | none => untagged
  | some bytes =>
    if isOwnTag tag then .error .malformed
    else if bytes = coreTag "bool" then (need (plainFlag? text)).map .bool
    else if bytes = coreTag "int" then (need (integerValue? text.toList)).bind id
    else if bytes = coreTag "float" then (need (plainFloat? text)).map ofFloat
    else if bytes = coreTag "null" then
      if text ∈ nullWords then .ok .null else .error .malformed
    else if bytes.head? = some (byte '!'.toNat) then untagged
    else .ok (.string text)

end TaskEngine.Yaml
