import TaskEngine.Binary64.Basic

/-!
# Decimal text of binary64 numbers

Reading takes a decimal to the number nearest to its exact value.  Writing takes
a number to the fewest decimal digits that read back as that number; of several
such digit strings it takes the nearest to the exact value, and of two equally
near ones the even one.  How the digits are laid out is a separate decision, kept
in a `DecimalLayout`.

## Main definitions

* `Binary64.ofDecimal` — the number nearest to `digits * 10 ^ exponent`.
* `Binary64.ofText?` — the numbers written with an optional sign, digits around an
  optional point, an optional exponent, or the words for infinity and no value.
* `Binary64.shortest` — the fewest digits that identify a positive number.
* `DecimalLayout`, `Binary64.render` — where positional notation ends and how the
  exponent is written.
-/

namespace TaskEngine

/-- The value of a decimal digit. -/
def digitValue? (c : Char) : Option Nat :=
  if '0' ≤ c ∧ c ≤ '9' then some (c.toNat - '0'.toNat) else none

/-- Whether a character is a decimal digit. -/
def isDecimalDigit (c : Char) : Bool := (digitValue? c).isSome

/-- The natural number that a string of decimal digits names. -/
def digitsValue (digits : List Char) : Nat :=
  digits.foldl (fun value c => value * 10 + (digitValue? c).getD 0) 0

/-- The decimal digits of a natural number, most significant first. -/
def decimalDigits (n : Nat) : List Char := Nat.toDigits 10 n

/-- How many decimal digits a natural number has; zero has one. -/
def decimalLength (n : Nat) : Nat := (decimalDigits n).length

/-- A natural number without the zeros at its end, and how many there were. -/
def stripZeros : Nat → Nat → Nat × Nat
  | 0, n => (n, 0)
  | fuel + 1, n =>
    if n ≠ 0 ∧ n % 10 = 0 then
      let (rest, count) := stripZeros fuel (n / 10)
      (rest, count + 1)
    else (n, 0)

namespace Binary64

/-! ### Reading -/

/-- The largest decimal exponent whose powers still have to be computed: `10 ^ 400` is
beyond every number and `10 ^ -400` nearer to zero than to any other. -/
def exponentLimit : Int := 400

/-- The number nearest to `digits * 10 ^ exponent`. -/
def ofDecimal (negative : Bool) (digits : Nat) (exponent : Int) : Binary64 :=
  if digits = 0 then zero negative
  else if exponentLimit ≤ exponent then .infinite negative
  else if exponent + decimalLength digits ≤ -exponentLimit then zero negative
  else if 0 ≤ exponent then ofRatio negative (digits * tenTo exponent.toNat * twoTo scale) 1
  else ofRatio negative (digits * twoTo scale) (tenTo (-exponent).toNat)

/-- Splits off a sign; without one the number is positive. -/
def splitSign : List Char → Bool × List Char
  | '-' :: rest => (true, rest)
  | '+' :: rest => (false, rest)
  | rest => (false, rest)

/-- Reads an exponent: a sign and at least one digit, and nothing after them. -/
def exponent? (text : List Char) : Option Int :=
  let (negative, digits) := splitSign text
  if digits ≠ [] ∧ digits.all isDecimalDigit then
    let value : Int := digitsValue digits
    some (if negative then -value else value)
  else none

/-- Reads an unsigned decimal: digits around an optional point, at least one in all, and
an optional exponent. -/
def unsigned? (negative : Bool) (text : List Char) : Option Binary64 :=
  let whole := text.takeWhile isDecimalDigit
  let afterWhole := text.dropWhile isDecimalDigit
  let (fraction, afterFraction) := match afterWhole with
    | '.' :: rest => (rest.takeWhile isDecimalDigit, rest.dropWhile isDecimalDigit)
    | rest => ([], rest)
  if whole = [] ∧ fraction = [] then none
  else
    let digits := digitsValue (whole ++ fraction)
    let shift : Int := fraction.length
    match afterFraction with
    | [] => some (ofDecimal negative digits (-shift))
    | c :: rest =>
      if c = 'e' ∨ c = 'E' then
        (exponent? rest).map fun exponent => ofDecimal negative digits (exponent - shift)
      else none

/-- Reads a number: an optional sign, then a decimal or, in any case of letters, one of
the words `inf`, `infinity` and `nan`. -/
def ofText? (text : String) : Option Binary64 :=
  let (negative, rest) := splitSign text.toList
  let word := rest.map Char.toLower
  if word = "inf".toList ∨ word = "infinity".toList then some (.infinite negative)
  else if word = "nan".toList then some .nan
  else unsigned? negative rest

/-! ### Shortest digits -/

/-- The powers of ten below which grids of decimals are compared, enough to make every
grid of seventeen digits of a positive number integral. -/
def gridScale : Nat := 400

/-- The decimals between two neighbouring midpoints: a digit string identifies a number
exactly when it lies in the number's interval.  All fields are multiples of one small
unit, `2 ^ -1076 * 10 ^ -400`. -/
structure Interval where
  /-- The midpoint below the number. -/
  low : Nat
  /-- The number itself. -/
  value : Nat
  /-- The midpoint above the number. -/
  high : Nat
  /-- Whether the midpoints round to the number. -/
  closed : Bool

/-- The interval of the reals that round to `mantissa * 2 ^ exponent` units. -/
def interval (mantissa exponent : Nat) : Interval :=
  let width := twoTo exponent * tenTo gridScale
  let below := if mantissa = twoTo 52 ∧ exponent ≠ 0 then 1 else 2
  { low := (4 * mantissa - below) * width
    value := 4 * mantissa * width
    high := (4 * mantissa + 2) * width
    closed := mantissa % 2 == 0 }

/-- Whether a point lies in the interval. -/
def Interval.contains (i : Interval) (point : Nat) : Bool :=
  if i.closed then i.low ≤ point && point ≤ i.high else i.low < point && point < i.high

/-- The point of the grid with the given step that lies in the interval, if there is one:
the nearer of the two neighbours of the value, the even one if both are equally near. -/
def Interval.onGrid? (i : Interval) (step : Nat) : Option Nat :=
  let below := i.value / step
  let fromBelow := i.value - below * step
  let toAbove := (below + 1) * step - i.value
  match i.contains (below * step), i.contains ((below + 1) * step) with
  | true, true =>
    if fromBelow < toAbove ∨ (fromBelow = toAbove ∧ below % 2 = 0) then some below
    else some (below + 1)
  | true, false => some below
  | false, true => some (below + 1)
  | false, false => none

/-- Decimal digits and the power of ten of the last one. -/
structure Decimal where
  /-- The digits, as a natural number. -/
  digits : Nat
  /-- The power of ten that they are multiples of. -/
  exponent : Int

/-- The power of ten of the first digit of a positive `mantissa * 2 ^ exponent` units. -/
def leadingExponent (mantissa exponent : Nat) : Int :=
  (decimalLength (mantissa * twoTo exponent * tenTo gridScale / twoTo scale) : Int) - 1 - gridScale

/-- The fewest digits that identify a positive number of `mantissa * 2 ^ exponent` units:
grids of one to seventeen digits are tried in this order. -/
def shortest (mantissa exponent : Nat) : Decimal :=
  let i := interval mantissa exponent
  let leading := leadingExponent mantissa exponent
  let onGrid (count : Nat) : Option Decimal :=
    let last := leading - count
    (i.onGrid? (tenTo (last + gridScale).toNat * twoTo (scale + 2))).map fun digits =>
      ⟨digits, last⟩
  ((List.range 17).findSome? onGrid).getD ⟨0, 0⟩

end Binary64

/-! ### Layout -/

/-- How the digits of a decimal are laid out. -/
structure DecimalLayout where
  /-- The smallest power of ten of the first digit that is written positionally, if there is
  a limit. -/
  positionalFrom : Option Int
  /-- The power of ten of the first digit from which an exponent is written, if there is one. -/
  positionalBelow : Option Int
  /-- What follows a positional number without a fractional part. -/
  wholeSuffix : String

namespace DecimalLayout

/-- Whether a number whose first digit has the given power of ten is written positionally. -/
def isPositional (layout : DecimalLayout) (leading : Int) : Bool :=
  layout.positionalFrom.all (· ≤ leading) && layout.positionalBelow.all (leading < ·)

/-- Digits with the point placed after the units. -/
def positional (layout : DecimalLayout) (digits : List Char) (leading : Int) : List Char :=
  if leading < 0 then
    ['0', '.'] ++ List.replicate (-leading - 1).toNat '0' ++ digits
  else
    let whole := leading.toNat + 1
    if digits.length ≤ whole then
      digits ++ List.replicate (whole - digits.length) '0' ++ layout.wholeSuffix.toList
    else digits.take whole ++ '.' :: digits.drop whole

/-- Digits with the point placed after the first, and a signed exponent. -/
def scientific (digits : List Char) (leading : Int) : List Char :=
  let fraction := match digits.drop 1 with
    | [] => []
    | rest => '.' :: rest
  let exponent := (if leading < 0 then '-' else '+') :: decimalDigits leading.natAbs
  digits.take 1 ++ fraction ++ 'e' :: exponent

end DecimalLayout

/-- The text of a finite number in a layout; other numbers have no decimal digits and are
written as words. -/
def Binary64.render (layout : DecimalLayout) : Binary64 → String
  | .finite negative mantissa exponent _ =>
    let magnitude :=
      if mantissa = 0 then '0' :: layout.wholeSuffix.toList
      else
        let decimal := shortest mantissa exponent
        let (digits, zeros) := stripZeros 20 decimal.digits
        let text := decimalDigits digits
        let leading := decimal.exponent + zeros + text.length - 1
        if layout.isPositional leading then layout.positional text leading
        else DecimalLayout.scientific text leading
    String.ofList (if negative then '-' :: magnitude else magnitude)
  | .infinite negative => if negative then "-inf" else "inf"
  | .nan => "NaN"

/-- All digits, never an exponent, and no point after a whole number. -/
def DecimalLayout.plain : DecimalLayout := ⟨none, none, ""⟩

end TaskEngine
