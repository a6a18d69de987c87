/-!
# Digits of other radices

## Main definitions

* `radixDigit?` — the value of a digit or letter below a radix.
* `radixNumber?` — the number that digits name in a radix.
-/

namespace TaskEngine

/-- The value of a digit or letter in a radix of at most thirty-six, if it is below the radix. -/
def radixDigit? (radix : Nat) (c : Char) : Option Nat :=
  let value? : Option Nat :=
    if '0' ≤ c ∧ c ≤ '9' then some (c.toNat - '0'.toNat)
    else if 'a' ≤ c ∧ c ≤ 'z' then some (c.toNat - 'a'.toNat + 10)
    else if 'A' ≤ c ∧ c ≤ 'Z' then some (c.toNat - 'A'.toNat + 10)
    else none
  value?.filter (· < radix)

/-- The number that digits name in a radix, most significant first, if each is below it. -/
def radixNumber? (radix : Nat) (digits : List Char) : Option Nat :=
  digits.foldl (fun value c => value.bind fun v => (radixDigit? radix c).map (v * radix + ·))
    (some 0)

end TaskEngine
