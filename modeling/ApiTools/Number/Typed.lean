import ApiTools.Number.Numeral
import ApiTools.Text.Blank
import ApiTools.Text.Numeral

/-!
# Numbers as they are typed

White space around a typed number does not matter, and its digits may be those of any script.
-/

namespace ApiTools

/-- A text with the decimal digits of every script replaced by the ASCII ones, and without the
white space around it. -/
def Text.typed (t : Text) : Text :=
  (t.trim CodePoint.isWhiteSpace).map fun c ↦
    if c.isAscii then c
    else
      match c.decimalValue? with
      | some n => (Text.ofNat n).headD c
      | none => c

/-- The double that a text stands for; single underscores may stand between its digits. -/
def Double.ofTyped? (t : Text) : Option Double :=
  (Double.dropDigitSeparators? false t.typed).bind Double.ofNumeral?

namespace Typed

/-- The value of a digit or letter in a base. -/
def digit? (base : Nat) (c : CodePoint) : Option Nat :=
  match c.hexValue? with
  | some n => if n < base then some n else none
  | none => none

/-- The natural number that digits in a base stand for. -/
def digits? (base : Nat) (t : Text) : Option Nat :=
  if t = [] then none else t.foldlM (fun n c ↦ (digit? base c).map (base * n + ·)) 0

/-- The letter that may stand behind a zero before the digits of a base. -/
def baseLetter? (base : Nat) : Option CodePoint :=
  if base = 2 then some 'b' else if base = 8 then some 'o' else if base = 16 then some 'x'
  else none

/-- Digits without the mark of their base, if they have one. -/
def withoutMark (base : Nat) (t : Text) : Text :=
  match t with
  | c :: d :: rest =>
    if c = '0' ∧ some d.toAsciiLower = baseLetter? base then rest else t
  | _ => t

/-- The whole number in a base, at most sixteen, that a text stands for. -/
def int? (base : Nat) (t : Text) : Option Int :=
  let (negative, body) := Double.sign t.typed
  (digits? base (withoutMark base body)).map fun n ↦ if negative then -(n : Int) else n

end Typed

end ApiTools
