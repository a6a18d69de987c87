/-!
# Binary floating point numbers of 64 bits

Option values and waiting times are binary64 numbers.  A finite one is kept as
its exact value, an integral mantissa of at most 53 bits times a power of two
counted from `2 ^ -1074`, the smallest positive number of the format.  Every
operation computes the exact result in natural numbers and rounds once, to the
nearest representable number with ties to the even mantissa, so nothing here
depends on the arithmetic of the machine.

## Main definitions

* `Binary64` — the numbers; the invariant `Canonical` makes the representation
  of each finite number unique.
* `Binary64.units` — the magnitude of a finite number, in multiples of `2 ^ -1074`.
* `twoTo`, `tenTo` — powers of two and of ten.
* `roundHalfEven` — the nearest integer to a quotient.
* `Binary64.ofRatio` — the nearest number to a quotient of naturals.
* `Binary64.add`, `Binary64.sub`, `Binary64.mul`, `Binary64.div` — arithmetic.
* `Binary64.ofNat`, `Binary64.ofInt` — conversion of integers.
-/

namespace TaskEngine

/-- A power of two. -/
def twoTo (exponent : Nat) : Nat := Nat.pow 2 exponent

/-- A power of ten. -/
def tenTo (exponent : Nat) : Nat := Nat.pow 10 exponent

/-- The integer nearest to `num / den`; an exact half goes to the even neighbour. -/
def roundHalfEven (num den : Nat) : Nat :=
  let low := num / den
  let rest := num % den
  if den < 2 * rest ∨ (2 * rest = den ∧ low % 2 = 1) then low + 1 else low

theorem div_le_roundHalfEven (num den : Nat) : num / den ≤ roundHalfEven num den := by
  unfold roundHalfEven
  dsimp only
  split <;> omega

theorem roundHalfEven_le_div_succ (num den : Nat) : roundHalfEven num den ≤ num / den + 1 := by
  unfold roundHalfEven
  dsimp only
  split <;> omega

/-- A quotient without remainder is its own nearest integer. -/
theorem roundHalfEven_of_dvd {num den : Nat} (h : num % den = 0) (hd : 0 < den) :
    roundHalfEven num den = num / den := by
  unfold roundHalfEven
  dsimp only
  rw [h]
  split <;> omega

namespace Binary64

/-- The number of steps of the exponent below the binary point: the smallest
positive number is `2 ^ -1074`. -/
def scale : Nat := 1074

/-- The largest exponent of a finite number, counted from the smallest. -/
def maxExponent : Nat := 2045

/-- A mantissa and an exponent in the one form that represents their product: 53
bits at most, and exactly 53 unless the exponent is the smallest. -/
def Canonical (mantissa exponent : Nat) : Prop :=
  mantissa < twoTo 53 ∧ exponent ≤ maxExponent ∧ (exponent = 0 ∨ twoTo 52 ≤ mantissa)

instance (mantissa exponent : Nat) : Decidable (Canonical mantissa exponent) :=
  inferInstanceAs (Decidable (_ ∧ _ ∧ _))

theorem canonical_zero : Canonical 0 0 := by decide

end Binary64

/-- A binary64 number. -/
inductive Binary64
  /-- The number `± mantissa * 2 ^ (exponent - 1074)`; zero has both signs. -/
  | finite (negative : Bool) (mantissa exponent : Nat)
      (canonical : Binary64.Canonical mantissa exponent)
  /-- An infinity. -/
  | infinite (negative : Bool)
  /-- The result of an operation without a value. -/
  | nan
  deriving DecidableEq

namespace Binary64

/-- The zero of a sign. -/
def zero (negative : Bool) : Binary64 := .finite negative 0 0 canonical_zero

instance : Inhabited Binary64 := ⟨zero false⟩

/-- Whether the number is neither an infinity nor the missing value. -/
def isFinite : Binary64 → Bool
  | .finite .. => true
  | _ => false

/-- The magnitude of a finite number in multiples of `2 ^ -1074`, and zero otherwise. -/
def units : Binary64 → Nat
  | .finite _ mantissa exponent _ => mantissa * twoTo exponent
  | _ => 0

/-- Whether the sign is minus. -/
def isNegative : Binary64 → Bool
  | .finite negative .. => negative
  | .infinite negative => negative
  | .nan => false

/-! ### Rounding -/

/-- The exponent of the spacing of the numbers around `n` units. -/
def spacing (n : Nat) : Nat := if n < twoTo 53 then 0 else n.log2 - 52

/-- The canonical form of `mantissa * 2 ^ exponent` for a mantissa that rounding may
have carried to 54 bits; beyond the largest exponent it is an infinity. -/
def normalize (negative : Bool) (mantissa exponent : Nat) : Binary64 :=
  if h : Canonical mantissa exponent then .finite negative mantissa exponent h
  else if h : mantissa = twoTo 53 ∧ exponent < maxExponent then
    .finite negative (twoTo 52) (exponent + 1) ⟨by decide, h.2, Or.inr (Nat.le_refl _)⟩
  else .infinite negative

/-- The number nearest to `num / den` units of `2 ^ -1074`, with a tie to the even
mantissa and an infinity from half a step beyond the largest number. -/
def ofRatio (negative : Bool) (num den : Nat) : Binary64 :=
  let exponent := spacing (num / den)
  normalize negative (roundHalfEven num (den * twoTo exponent)) exponent

/-! ### Integers -/

/-- The number nearest to a natural number. -/
def ofNat (n : Nat) : Binary64 := ofRatio false (n * twoTo scale) 1

/-- The number nearest to an integer; zero is positive. -/
def ofInt : Int → Binary64
  | .ofNat n => ofNat n
  | .negSucc n => ofRatio true ((n + 1) * twoTo scale) 1

/-- Whether a finite number has no fractional part. -/
def isIntegral : Binary64 → Bool
  | x@(.finite ..) => x.units % twoTo scale == 0
  | _ => false

/-- The integer part of a number, rounded toward zero. -/
def truncate (x : Binary64) : Int :=
  let magnitude : Int := x.units / twoTo scale
  if x.isNegative then -magnitude else magnitude

/-! ### Arithmetic -/

/-- The number with the other sign. -/
def neg : Binary64 → Binary64
  | .finite negative mantissa exponent h => .finite (!negative) mantissa exponent h
  | .infinite negative => .infinite (!negative)
  | .nan => .nan

/-- The exact value of a finite number in multiples of `2 ^ -1074`. -/
def signedUnits (x : Binary64) : Int := if x.isNegative then -(x.units : Int) else x.units

/-- The sum, rounded once; a sum of zero is negative only if both summands are. -/
def add : Binary64 → Binary64 → Binary64
  | .nan, _ => .nan
  | _, .nan => .nan
  | .infinite a, .infinite b => if a = b then .infinite a else .nan
  | .infinite a, .finite .. => .infinite a
  | .finite .., .infinite b => .infinite b
  | x@(.finite a ..), y@(.finite b ..) =>
    match x.signedUnits + y.signedUnits with
    | .ofNat 0 => zero (a && b)
    | .ofNat (n + 1) => ofRatio false (n + 1) 1
    | .negSucc n => ofRatio true (n + 1) 1

/-- The difference, rounded once. -/
def sub (x y : Binary64) : Binary64 := add x y.neg

/-- The product, rounded once. -/
def mul : Binary64 → Binary64 → Binary64
  | .nan, _ => .nan
  | _, .nan => .nan
  | .infinite a, .infinite b => .infinite (a != b)
  | .infinite a, y@(.finite b ..) => if y.units = 0 then .nan else .infinite (a != b)
  | x@(.finite a ..), .infinite b => if x.units = 0 then .nan else .infinite (a != b)
  | x@(.finite a ..), y@(.finite b ..) => ofRatio (a != b) (x.units * y.units) (twoTo scale)

/-- The quotient, rounded once. -/
def div : Binary64 → Binary64 → Binary64
  | .nan, _ => .nan
  | _, .nan => .nan
  | .infinite _, .infinite _ => .nan
  | .infinite a, .finite b .. => .infinite (a != b)
  | .finite a .., .infinite b => zero (a != b)
  | x@(.finite a ..), y@(.finite b ..) =>
    if y.units = 0 then if x.units = 0 then .nan else .infinite (a != b)
    else ofRatio (a != b) (x.units * twoTo scale) y.units

/-- The number one. -/
def one : Binary64 := ofNat 1

/-! ### Comparison -/

/-- Whether the number is zero, of either sign. -/
def isZero : Binary64 → Bool
  | x@(.finite ..) => x.units == 0
  | _ => false

/-- Whether the number is greater than zero. -/
def isPositive : Binary64 → Bool
  | x@(.finite negative ..) => !negative && x.units != 0
  | .infinite negative => !negative
  | .nan => false

/-- Numerical equality: the two zeros are equal, and a missing value equals nothing. -/
def sameValue : Binary64 → Binary64 → Bool
  | x@(.finite ..), y@(.finite ..) => x.signedUnits == y.signedUnits
  | .infinite a, .infinite b => a == b
  | _, _ => false

end Binary64

end TaskEngine
