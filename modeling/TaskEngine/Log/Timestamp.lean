import TaskEngine.Binary64.Decimal
import TaskEngine.Text.Space

/-!
# Timestamps

A moment is counted in minutes since the start of 1970, with the seconds beyond; the
sixtieth second of a minute is a leap second.  Texts of moments give date, time of
day and the distance from universal time.  Reading is lenient about blanks and
leading zeros; writing always gives universal time.

## Main definitions

* `Timestamp` — the moments.
* `daysOfDate`, `dateOfDays` — dates of the Gregorian calendar as counts of days.
* `Timestamp.ofText?`, `Timestamp.text` — reading and writing.
-/

namespace TaskEngine

/-- A moment. -/
structure Timestamp where
  /-- Whole minutes since the start of 1970, in universal time. -/
  minutes : Int
  /-- Seconds of the minute, 60 for a leap second. -/
  second : Nat
  /-- Billionths of the second. -/
  nano : Nat
  deriving DecidableEq

/-! ### Dates -/

/-- Whether a year has a 29 February. -/
def isLeapYear (year : Int) : Bool := year % 4 == 0 && (year % 100 != 0 || year % 400 == 0)

/-- The number of days of a month. -/
def daysOfMonth (year : Int) (month : Nat) : Nat :=
  if month = 2 then if isLeapYear year then 29 else 28
  else if month ∈ [4, 6, 9, 11] then 30
  else 31

/-- The days from the start of 1970 to a date.  Years are taken to start in March, so that a
leap day is the last of its year. -/
def daysOfDate (year : Int) (month day : Nat) : Int :=
  let year := if month ≤ 2 then year - 1 else year
  let month : Nat := (month + 9) % 12
  let century := year.fdiv 400
  let yearOfCycle := year - century * 400
  let dayOfYear : Int := (153 * month + 2) / 5 + (day : Int) - 1
  let dayOfCycle := yearOfCycle * 365 + yearOfCycle / 4 - yearOfCycle / 100 + dayOfYear
  century * 146097 + dayOfCycle - 719468

/-- The date that is a number of days after the start of 1970. -/
def dateOfDays (days : Int) : Int × Nat × Nat :=
  let shifted := days + 719468
  let cycle := shifted.fdiv 146097
  let dayOfCycle := shifted - cycle * 146097
  let yearOfCycle :=
    (dayOfCycle - dayOfCycle / 1460 + dayOfCycle / 36524 - dayOfCycle / 146096) / 365
  let dayOfYear := dayOfCycle - (365 * yearOfCycle + yearOfCycle / 4 - yearOfCycle / 100)
  let month := (5 * dayOfYear + 2) / 153
  let day := dayOfYear - (153 * month + 2) / 5 + 1
  let month := if month < 10 then month + 3 else month - 9
  let year := yearOfCycle + cycle * 400
  (if month ≤ 2 then year + 1 else year, month.toNat, day.toNat)

/-- The first and the last year in which moments lie. -/
def yearRange : Int × Int := (-262143, 262142)

/-! ### Reading -/

/-- Up to `limit` decimal digits, at least one, and what follows them. -/
def takeNumber (limit : Nat) (text : List Char) : Option (Nat × List Char) :=
  let digits := (text.take limit).takeWhile isDecimalDigit
  if digits.isEmpty then none else some (digitsValue digits, text.drop digits.length)

/-- A number of up to two digits behind blanks. -/
def takeField (text : List Char) : Option (Nat × List Char) := takeNumber 2 (trimStart text)

/-- A mark behind blanks. -/
def takeMark (mark : Char) (text : List Char) : Option (List Char) :=
  match trimStart text with
  | c :: rest => if c = mark then some rest else none
  | [] => none

/-- A year: four digits at most, or any number of digits behind a sign. -/
def takeYear (text : List Char) : Option (Int × List Char) :=
  match trimStart text with
  | '-' :: rest => (takeNumber rest.length rest).map fun (n, rest) => (-(n : Int), rest)
  | '+' :: rest => (takeNumber rest.length rest).map fun (n, rest) => ((n : Int), rest)
  | text => (takeNumber 4 text).map fun (n, rest) => ((n : Int), rest)

/-- The mark between date and time. -/
def takeSeparator : List Char → Option (List Char)
  | c :: rest => if c = 'T' ∨ c = 't' ∨ c = ' ' then some rest else none
  | [] => none

/-- Billionths behind a point, if there is one; further digits are passed over. -/
def takeNano : List Char → Option (Nat × List Char)
  | '.' :: rest =>
    let digits := (rest.take 9).takeWhile isDecimalDigit
    if digits.isEmpty then none
    else some (digitsValue digits * tenTo (9 - digits.length), rest.dropWhile isDecimalDigit)
  | rest => some (0, rest)

/-- Two decimal digits. -/
def takePair : List Char → Option (Nat × List Char)
  | a :: b :: rest =>
    if isDecimalDigit a ∧ isDecimalDigit b then some (digitsValue [a, b], rest) else none
  | _ => none

/-- Hours and minutes behind a sign, in minutes. -/
def takeDistance (text : List Char) : Option (Nat × List Char) := do
  let (hours, rest) ← takePair text
  let (minutes, rest) ← takePair (rest.dropWhile fun c => c = ':' || isSpace c)
  if minutes < 60 then some (hours * 60 + minutes, rest) else none

/-- The distance from universal time, in minutes. -/
def takeOffset (text : List Char) : Option (Int × List Char) :=
  match text with
  | 'Z' :: rest | 'z' :: rest => some (0, rest)
  | '+' :: rest => (takeDistance rest).map fun (n, rest) => ((n : Int), rest)
  | '-' :: rest | '\u2212' :: rest => (takeDistance rest).map fun (n, rest) => (-(n : Int), rest)
  | _ =>
    if asciiLower (String.ofList (text.take 3)) = "utc" then some (0, text.drop 3) else none

namespace Timestamp

/-- The moment that a text names. -/
def ofText? (text : String) : Option Timestamp := do
  let (year, rest) ← takeYear text.toList
  let rest ← takeMark '-' rest
  let (month, rest) ← takeField rest
  let rest ← takeMark '-' rest
  let (day, rest) ← takeField rest
  let rest ← takeSeparator rest
  let (hour, rest) ← takeField rest
  let rest ← takeMark ':' rest
  let (minute, rest) ← takeField rest
  let rest ← takeMark ':' rest
  let (second, rest) ← takeField rest
  let (nano, rest) ← takeNano rest
  let (offset, rest) ← takeOffset (trimStart rest)
  let inRange (days : Int) : Bool :=
    let (year, _) := dateOfDays days
    yearRange.1 ≤ year && year ≤ yearRange.2
  let minutes := daysOfDate year month day * 1440 + hour * 60 + minute - offset
  if trimStart rest = [] ∧ 1 ≤ month ∧ month ≤ 12 ∧ 1 ≤ day ∧ day ≤ daysOfMonth year month ∧
      hour ≤ 23 ∧ minute ≤ 59 ∧ second ≤ 60 ∧ offset.natAbs < 1440 ∧
      inRange (daysOfDate year month day) ∧ inRange (minutes.fdiv 1440) then
    some ⟨minutes, second, nano⟩
  else none

/-! ### Writing -/

/-- A number with zeros in front up to a width. -/
def padded (width n : Nat) : String :=
  let digits := decimalDigits n
  String.ofList (List.replicate (width - digits.length) '0' ++ digits)

/-- A year; one of more or less than four digits has a sign. -/
def yearText (year : Int) : String :=
  if 0 ≤ year ∧ year ≤ 9999 then padded 4 year.toNat
  else (if year < 0 then "-" else "+") ++ padded 4 year.natAbs

/-- Billionths of a second: none, or three, six or nine digits, as many as it takes. -/
def nanoText (nano : Nat) : String :=
  if nano = 0 then ""
  else if nano % 1000000 = 0 then "." ++ padded 3 (nano / 1000000)
  else if nano % 1000 = 0 then "." ++ padded 6 (nano / 1000)
  else "." ++ padded 9 nano

/-- The text of a moment, in universal time. -/
def text (time : Timestamp) : String :=
  let days := time.minutes.fdiv 1440
  let minute := (time.minutes - days * 1440).toNat
  let (year, month, day) := dateOfDays days
  yearText year ++ "-" ++ padded 2 month ++ "-" ++ padded 2 day ++ "T" ++ padded 2 (minute / 60) ++
    ":" ++ padded 2 (minute % 60) ++ ":" ++ padded 2 time.second ++ nanoText time.nano ++ "Z"

end Timestamp

end TaskEngine
