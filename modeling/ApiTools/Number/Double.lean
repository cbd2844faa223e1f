/-!
# Double precision numbers

The binary floating point numbers of 64 bits, as data: a sign, an exponent field and a
fraction field. Arithmetic on them goes through exact quotients of natural numbers; the only
rounding is `ofRatio`, to the nearest number and, between two equally near, to the one whose
fraction is even.
-/

namespace ApiTools

/-- The number of values that the fraction field has, which is one of 52 bits. -/
abbrev Double.fractionCount : Nat := 0x10000000000000

/-- A double precision number. `exponent` is the raw field, 0 for the subnormal range. -/
inductive Double where
  | nan
  | infinite (negative : Bool)
  | finite (negative : Bool) (exponent : Fin 2047) (fraction : Fin Double.fractionCount)
deriving DecidableEq

namespace Double

/-- Zero, with a sign. -/
def zero (negative : Bool) : Double := .finite negative 0 0

/-- A magnitude as its position in the rising sequence of the non-negative numbers; positions
behind the last finite number are infinity. -/
def ofPosition (negative : Bool) (position : Nat) : Double :=
  if h : position / fractionCount < 2047 then
    .finite negative ⟨position / fractionCount, h⟩ ⟨position % fractionCount, Nat.mod_lt _ (by decide)⟩
  else .infinite negative

/-- The whole number of units in a finite number, and the exponent of the unit: the magnitude
is `units * 2 ^ (unit - 1074)`. -/
def parts (exponent : Fin 2047) (fraction : Fin fractionCount) : Nat × Nat :=
  if exponent.val = 0 then (fraction.val, 0)
  else (fractionCount + fraction.val, exponent.val - 1)

/-- The magnitude of a finite number as a quotient. -/
def ratio (exponent : Fin 2047) (fraction : Fin fractionCount) : Nat × Nat :=
  let (units, unit) := parts exponent fraction
  (units * Nat.pow 2 unit, Nat.pow 2 1074)

/-- A quotient rounded to a whole number, a half going to the even neighbour. -/
def roundHalfEven (num den : Nat) : Nat :=
  let quotient := num / den
  let twice := 2 * (num % den)
  if twice < den then quotient
  else if den < twice then quotient + 1
  else quotient + quotient % 2

/-- The position of the number nearest to `num / den`: the unit is chosen so that the quotient
has 53 binary digits, unless that unit would be smaller than the smallest one. -/
def nearestPosition (num den : Nat) : Nat :=
  -- The quotient in the smallest unit.
  let scaled := num * Nat.pow 2 1074
  let digits := (scaled / den).log2 + 1
  let unit := digits - 53
  unit * fractionCount + roundHalfEven scaled (den * Nat.pow 2 unit)

/-- The number nearest to a quotient with a positive denominator. -/
def ofRatio (negative : Bool) (num den : Nat) : Double :=
  ofPosition negative (nearestPosition num den)

/-- The number of decimal digits that a number has; one for zero. -/
def decimalLength (n : Nat) : Nat := (Nat.toDigits 10 n).length

/-- The number nearest to `digits * 10 ^ exponent`. Magnitudes far outside of the range are
settled without computing the power. -/
def ofDecimal (negative : Bool) (digits : Nat) (exponent : Int) : Double :=
  if digits = 0 then zero negative
  else
    let magnitude := exponent + decimalLength digits
    if magnitude > 400 then .infinite negative
    else if magnitude < -400 then zero negative
    else if 0 ≤ exponent then ofRatio negative (digits * Nat.pow 10 exponent.toNat) 1
    else ofRatio negative digits (Nat.pow 10 (-exponent).toNat)

/-- The number nearest to a whole number. -/
def ofInt (i : Int) : Double := ofRatio (i < 0) i.natAbs 1

/-- Neither infinite nor undefined. -/
def isFinite : Double → Bool
  | .finite .. => true
  | _ => false

/-- The whole number that a number is, if it is one. -/
def toInt? : Double → Option Int
  | .finite negative exponent fraction =>
    let (num, den) := ratio exponent fraction
    if num % den = 0 then
      some (if negative then -(num / den : Nat) else (num / den : Nat))
    else none
  | _ => none

/-- The place of a number in the rising order of all; an undefined number has none. The two zeros
share one. -/
def orderKey? : Double → Option Int
  | .nan => none
  | .infinite negative =>
    let position : Int := 2047 * fractionCount
    some (if negative then -position else position)
  | .finite negative e f =>
    let position : Int := e.val * fractionCount + f.val
    some (if negative then -position else position)

/-- Greater than zero. -/
def isPositive : Double → Bool
  | .infinite negative => !negative
  | .finite negative e f => !negative && !(e.val == 0 && f.val == 0)
  | .nan => false

/-- Equality of the numbers meant: the two zeros are equal, and an undefined number equals
nothing. -/
def sameNumber : Double → Double → Bool
  | .nan, _ => false
  | _, .nan => false
  | .infinite a, .infinite b => a == b
  | .finite a e f, .finite b g h =>
    e == g && f == h && (a == b || (e.val == 0 && f.val == 0))
  | _, _ => false

end Double

end ApiTools
