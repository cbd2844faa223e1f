import ApiTools.Number.Double
import ApiTools.Text.Basic

/-!
# Reading numerals

A numeral is a sign, digits with or without a point, and perhaps a power of ten; or one of the
words for infinity and for an undefined number, in any letter case.
-/

namespace ApiTools

namespace Double

/-- A sign at the start of a text: is it a minus, and what follows? -/
def sign (t : Text) : Bool × Text :=
  match t with
  | c :: rest => if c = '-' then (true, rest) else if c = '+' then (false, rest) else (false, t)
  | [] => (false, [])

/-- The power of ten at the end of a numeral: nothing, or a letter, a sign and digits. -/
def powerOfTen? (t : Text) : Option Int :=
  match t with
  | [] => some 0
  | c :: rest =>
    if c = 'e' ∨ c = 'E' then
      let (negative, digits) := sign rest
      if digits ≠ [] ∧ digits.all CodePoint.isAsciiDigit then
        some (if negative then -(Text.digitsValue digits : Int) else Text.digitsValue digits)
      else none
    else none

/-- The digits of a numeral behind its point, and what follows them. -/
def pointDigits (t : Text) : Text × Text :=
  match t with
  | c :: rest => if c = '.' then rest.span CodePoint.isAsciiDigit else ([], t)
  | [] => ([], [])

/-- The number that a numeral stands for. -/
def ofNumeral? (t : Text) : Option Double := do
  let (negative, body) := sign t
  let word := body.toAsciiLower
  if word = "inf" ∨ word = "infinity" then some (.infinite negative)
  else if word = "nan" then some .nan
  else
    let (whole, rest) := body.span CodePoint.isAsciiDigit
    let (part, rest) := pointDigits rest
    let power ← powerOfTen? rest
    if whole = [] ∧ part = [] then none
    else some (ofDecimal negative (Text.digitsValue (whole ++ part)) (power - part.length))

/-- The text without its underscores, if each of them stands between two digits. -/
def dropDigitSeparators? : (afterDigit : Bool) → Text → Option Text
  | _, [] => some []
  | afterDigit, c :: rest =>
    if c = '_' then
      match rest with
      | d :: _ => if afterDigit && d.isAsciiDigit then dropDigitSeparators? false rest else none
      | [] => none
    else (dropDigitSeparators? c.isAsciiDigit rest).map (c :: ·)

end Double

end ApiTools
