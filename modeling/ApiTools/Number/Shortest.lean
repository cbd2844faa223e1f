import ApiTools.Number.Double
import ApiTools.Text.Basic

/-!
# The shortest decimal of a double

The decimal of a number is the one with the fewest digits that reads back as the number; among
those the nearest to it, and between two equally near the one whose last digit is even. For
1, 2, … 17 digits the two neighbours of the number on that decimal grid are tested, in exact
arithmetic.
-/

namespace ApiTools

namespace Double

/-- A positive decimal: `digits * 10 ^ exponent`. -/
structure Decimal where
  digits : Nat
  exponent : Int

namespace Decimal

/-- A power of ten as a quotient. -/
def powerOfTen (exponent : Int) : Nat × Nat :=
  if 0 ≤ exponent then (Nat.pow 10 exponent.toNat, 1) else (1, Nat.pow 10 (-exponent).toNat)

/-- The decimal without the zeros at the end of its digits. -/
def stripped (digits : Nat) (exponent : Int) : (fuel : Nat) → Decimal
  | 0 => ⟨digits, exponent⟩
  | fuel + 1 =>
    if digits % 10 = 0 ∧ digits ≠ 0 then stripped (digits / 10) (exponent + 1) fuel
    else ⟨digits, exponent⟩

/-- Does the decimal read back as the given magnitude? -/
def reads (d : Decimal) (e : Fin 2047) (f : Fin fractionCount) : Bool :=
  ofDecimal false d.digits d.exponent == .finite false e f

/-- The decimal exponent of a quotient: the least `k` with `num / den < 10 ^ k`. The binary
lengths give it up to a few steps. -/
def magnitude (num den : Nat) : Int :=
  let estimate := ((num.log2 : Int) - den.log2) * 30103 / 100000
  let below (k : Int) : Bool :=
    let (p, q) := powerOfTen k
    num * q < p * den
  if below (estimate - 1) then estimate - 1
  else if below estimate then estimate
  else if below (estimate + 1) then estimate + 1
  else estimate + 2

/-- The neighbour of the number on the grid of `count` digits that reads back, if one does. -/
def onGrid? (e : Fin 2047) (f : Fin fractionCount) (count : Nat) : Option Decimal :=
  let (num, den) := ratio e f
  let exponent := magnitude num den - count
  let (p, q) := powerOfTen exponent
  -- The number in units of the grid is `scaled / unit`.
  let scaled := num * q
  let unit := p * den
  let lower := scaled / unit
  let low : Decimal := ⟨lower, exponent⟩
  let high : Decimal := ⟨lower + 1, exponent⟩
  let twice := 2 * (scaled % unit)
  let nearer := if twice < unit ∨ (twice = unit ∧ lower % 2 = 0) then low else high
  let farther := if twice < unit ∨ (twice = unit ∧ lower % 2 = 0) then high else low
  if nearer.reads e f then some nearer
  else if farther.reads e f then some farther
  else none

/-- All digits of a finite number: a quotient by a power of two is one by a power of ten. -/
def exact (e : Fin 2047) (f : Fin fractionCount) : Decimal :=
  let (units, unit) := parts e f
  ⟨units * Nat.pow 2 unit * Nat.pow 5 1074, -1074⟩

/-- The shortest decimal of a finite magnitude. -/
def shortest (e : Fin 2047) (f : Fin fractionCount) : Decimal :=
  match (List.range' 1 17).findSome? (onGrid? e f) with
  | some d => stripped d.digits d.exponent 400
  | none => exact e f

end Decimal

/-- How a double is written: positional notation for decimal exponents from `least` to below
`bound`, and the texts of the numbers that are not finite. -/
structure Layout where
  least : Int
  bound : Int
  nan : Text
  infinity : Text

/-- `count` zeros. -/
def zeros (count : Nat) : Text := List.replicate count (CodePoint.ofChar '0')

/-- Digits with a point behind the first `whole` of them, zeros being added on either side as
needed; `.0` follows a whole number. -/
def positional (digits : Text) (whole : Int) : Text :=
  if whole ≤ 0 then "0." ++ zeros (-whole).toNat ++ digits
  else if digits.length ≤ whole.toNat then
    digits ++ zeros (whole.toNat - digits.length) ++ ".0"
  else digits.take whole.toNat ++ "." ++ digits.drop whole.toNat

/-- An exponent with its sign and at least two digits. -/
def exponentText (exponent : Int) : Text :=
  let digits := Text.ofNat exponent.natAbs
  (if exponent < 0 then "-" else "+" : Text) ++ zeros (2 - digits.length) ++ digits

/-- Digits in scientific notation: one digit before the point, which is left out where no other
digit follows. -/
def scientific (digits : Text) (exponent : Int) : Text :=
  let point : Text := if digits.length ≤ 1 then [] else "."
  digits.take 1 ++ point ++ digits.drop 1 ++ "e" ++ exponentText exponent

/-- A minus sign before negative numbers. -/
def signText (negative : Bool) : Text := if negative then "-" else []

/-- The text of a double. -/
def render (layout : Layout) : Double → Text
  | .nan => layout.nan
  | .infinite negative => signText negative ++ layout.infinity
  | .finite negative e f =>
    let d := Decimal.shortest e f
    let digits := Text.ofNat d.digits
    let exponent := d.exponent + digits.length - 1
    signText negative ++
      if e.val = 0 ∧ f.val = 0 then positional "0" 1
      else if layout.least ≤ exponent ∧ exponent < layout.bound then
        positional digits (exponent + 1)
      else scientific digits exponent

/-- The layout of source literals: positional from 0.0001 to below 10^16. -/
def literalLayout : Layout := ⟨-4, 16, "nan", "inf"⟩

/-- The layout of JSON documents, which name the numbers that are not finite. -/
def jsonLayout : Layout := ⟨-4, 16, "NaN", "Infinity"⟩

end Double

end ApiTools
