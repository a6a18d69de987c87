import TaskEngine.Binary64.Decimal

/-!
# Numbers of values

A number is an integer of 64 bits, signed or unsigned, or a finite binary64 number.
The two kinds stay distinct: the integer one and the float one are different numbers.

## Main definitions

* `Number` — the numbers.
* `Number.ofInt`, `Number.ofBinary64?` — conversion, where the number exists.
* `Number.toBinary64` — the nearest binary64 number.
* `Number.text` — the decimal text.
* `NumberLexeme`, `NumberLexeme.number?` — a number as written, and the number it reads as.
-/

namespace TaskEngine

/-- Whether an integer fits 64 bits, signed if negative and unsigned otherwise. -/
def FitsWord (i : Int) : Prop := -0x8000000000000000 ≤ i ∧ i < 0x10000000000000000

instance (i : Int) : Decidable (FitsWord i) := inferInstanceAs (Decidable (_ ∧ _))

/-- A number of a value. -/
inductive Number
  /-- An integer of 64 bits. -/
  | integer (value : Int) (fits : FitsWord value)
  /-- A finite binary64 number. -/
  | float (value : Binary64) (finite : value.isFinite = true)
  deriving DecidableEq

namespace Number

/-- The number for a binary64 number, if it is finite. -/
def ofBinary64? (x : Binary64) : Option Number :=
  if h : x.isFinite = true then some (.float x h) else none

/-- The integer, or the nearest float if it does not fit a word. -/
def ofInt? (i : Int) : Option Number :=
  if h : FitsWord i then some (.integer i h) else ofBinary64? (Binary64.ofInt i)

/-- The nearest binary64 number. -/
def toBinary64 : Number → Binary64
  | .integer i _ => Binary64.ofInt i
  | .float x _ => x

/-- Equality of numbers: integers by value, floats numerically, and an integer never
equals a float. -/
def same : Number → Number → Bool
  | .integer a _, .integer b _ => a == b
  | .float a _, .float b _ => a.sameValue b
  | _, _ => false

/-- Floats are positional while the first digit stands for at least `10 ^ -5` and less than
`10 ^ 16`, and a whole float keeps one zero after the point. -/
def layout : DecimalLayout := ⟨some (-5), some 16, ".0"⟩

/-- The decimal text of an integer. -/
def integerText (i : Int) : List Char :=
  if i < 0 then '-' :: decimalDigits i.natAbs else decimalDigits i.natAbs

/-- The text of a number. -/
def text : Number → List Char
  | .integer i _ => integerText i
  | .float x _ => (x.render layout).toList

end Number

/-! ### Numbers as written -/

/-- A number as written: a sign, digits, perhaps digits after a point, perhaps an exponent. -/
structure NumberLexeme where
  /-- Whether a minus sign stands in front. -/
  negative : Bool
  /-- The digits before the point. -/
  whole : List Char
  /-- The digits after the point, if there is one. -/
  fraction : Option (List Char)
  /-- The sign and digits of the exponent, if there is one. -/
  exponent : Option (Bool × List Char)
  deriving DecidableEq, Repr

namespace NumberLexeme

/-- The largest significand that is kept. -/
def significandLimit : Nat := 0x10000000000000000

/-- The largest exponent that is kept. -/
def exponentLimit : Nat := 0x80000000

/-- Appends digits to a significand while the result stays below the limit; returns the
significand and the digits that no longer fit. -/
def extend (limit : Nat) : Nat → List Char → Nat × List Char
  | significand, [] => (significand, [])
  | significand, c :: digits =>
    let next := significand * 10 + (digitValue? c).getD 0
    if next < limit then extend limit next digits else (significand, c :: digits)

/-- The power of ten with an exponent of at most 308. -/
def powerOfTen (exponent : Nat) : Binary64 := Binary64.ofDecimal false 1 exponent

/-- Divides by a power of ten, in steps of at most `10 ^ 308` each rounded once. -/
def scaleDown (x : Binary64) (exponent : Nat) : Binary64 :=
  if exponent ≤ 308 then x.div (powerOfTen exponent)
  else if x.isZero then x
  else scaleDown (x.div (powerOfTen 308)) (exponent - 308)
termination_by exponent

/-- The magnitude `significand * 10 ^ exponent`: the significand is rounded, then scaled by a
rounded power of ten.  There is none beyond the largest finite number. -/
def magnitude? (significand : Nat) (exponent : Int) : Option Binary64 :=
  let x := Binary64.ofNat significand
  if 0 ≤ exponent then
    if exponent ≤ 308 then
      let scaled := x.mul (powerOfTen exponent.toNat)
      if scaled.isFinite then some scaled else none
    else if x.isZero then some x
    else none
  else some (scaleDown x (-exponent).toNat)

/-- The signed number of a magnitude. -/
def signed (negative : Bool) (x : Binary64) : Option Number :=
  Number.ofBinary64? (if negative then x.neg else x)

/-- The float of a significand, the exponent collected so far and the written exponent. -/
def float? (negative : Bool) (significand : Nat) (start : Int) :
    Option (Bool × List Char) → Option Number
  | none => (magnitude? significand start).bind (signed negative)
  | some (down, digits) =>
    let (exponent, left) := extend exponentLimit 0 digits
    if left = [] then
      let exponent : Int := if down then start - exponent else start + exponent
      (magnitude? significand exponent).bind (signed negative)
    else if significand ≠ 0 ∧ !down then none
    else signed negative (Binary64.zero false)

/-- The number a lexeme reads as.  Digits alone that fit a word are an integer, and minus
zero is not one of them.  Otherwise the significand keeps the leading digits that fit 64
bits, and a number too large for a float reads as none. -/
def number? (lexeme : NumberLexeme) : Option Number :=
  let (significand, left) := extend significandLimit 0 lexeme.whole
  match lexeme.fraction with
  | some fraction =>
    let (longer, dropped) := extend significandLimit significand fraction
    float? lexeme.negative longer (left.length - (fraction.length - dropped.length : Nat))
      lexeme.exponent
  | none =>
    if left = [] ∧ lexeme.exponent = none then
      let value : Int := if lexeme.negative then -significand else significand
      if h : FitsWord value ∧ ¬(lexeme.negative = true ∧ significand = 0) then
        some (.integer value h.1)
      else signed lexeme.negative (Binary64.ofNat significand)
    else float? lexeme.negative significand left.length lexeme.exponent

end NumberLexeme

end TaskEngine
