/-!
# Binary floating-point numbers

Growth factors are given as binary floating-point numbers of 64 bits. Every finite one is a whole
multiple of a smallest unit, `2 ^ -1074`, so it is kept as a sign and a number of units, and
arithmetic on magnitudes is exact arithmetic followed by one rounding to 53 significant bits, to
the nearest and in a tie to the even neighbour.

Magnitudes beyond the largest finite number do not turn into infinity here. They are only ever
compared with smaller ones, and the outcome is the same.

## Main definitions

* `Binary64`, `Binary64.ofDecimal`, `Binary64.bits` — numbers, from decimal text and as bits
* `Magnitude.round`, `Magnitude.add`, `Magnitude.multiply` — arithmetic with rounding
-/

namespace KeyCustody

/-- A number of units of `2 ^ -1074`. -/
abbrev Magnitude := Nat

namespace Magnitude

/-- Units in the number one. -/
def one : Magnitude := 1 <<< 1074

/-- A quotient rounded to the nearest whole number, and in a tie to the even one. -/
def roundQuotient (numerator denominator : Nat) : Nat :=
  let q := numerator / denominator
  let r := numerator % denominator
  if 2 * r < denominator then q
  else if 2 * r = denominator then q + q % 2
  else q + 1

/-- A quotient in units, rounded to 53 significant bits. -/
def round (numerator denominator : Nat) : Magnitude :=
  let excess := (numerator / denominator).log2 - 52
  roundQuotient numerator (denominator <<< excess) <<< excess

/-- The rounded magnitude of a fraction. -/
def ofFraction (numerator denominator : Nat) : Magnitude := round (numerator * one) denominator

/-- The rounded sum. -/
def add (x y : Magnitude) : Magnitude := round (x + y) 1

/-- The rounded product. -/
def multiply (x y : Magnitude) : Magnitude := round (x * y) one

end Magnitude

/-- A binary floating-point number of 64 bits. -/
inductive Binary64
  | finite (negative : Bool) (magnitude : Magnitude)
  | infinite (negative : Bool)
  | notANumber
deriving DecidableEq, Repr

namespace Binary64

/-- The first magnitude that is too large to be finite. -/
def overflow : Magnitude := 1 <<< 2098

/-- The number of a magnitude, which is infinite if the magnitude is too large. -/
def ofMagnitude (negative : Bool) (m : Magnitude) : Binary64 :=
  if m < overflow then finite negative m else infinite negative

/-- The number nearest to `digits / 10 ^ places`. -/
def ofDecimal (negative : Bool) (digits places : Nat) : Binary64 :=
  ofMagnitude negative (Magnitude.ofFraction digits (Nat.pow 10 places))

/-- The number one. -/
def one : Binary64 := finite false Magnitude.one

/-- The number two. -/
def two : Binary64 := finite false (2 * Magnitude.one)

/-- Whether the number is finite. -/
def isFinite : Binary64 → Bool
  | finite _ _ => true
  | _ => false

/-- The bits of a magnitude: the biased exponent and the significand without its leading bit. -/
def magnitudeBits (m : Magnitude) : Nat :=
  if m < 1 <<< 52 then m
  else
    let exponent := m.log2 - 52
    (exponent + 1) <<< 52 + (m >>> exponent - 1 <<< 52)

/-- The bits of the interchange format. -/
def bits : Binary64 → Nat
  | finite negative m => (if negative then 1 <<< 63 else 0) + magnitudeBits m
  | infinite negative => (if negative then 1 <<< 63 else 0) + 2047 <<< 52
  | notANumber => 4095 <<< 51

/-- The text of a number that is not finite. -/
def specialText : Binary64 → String
  | finite _ _ => ""
  | infinite false => "inf"
  | infinite true => "-inf"
  | notANumber => "NaN"

end Binary64

end KeyCustody
