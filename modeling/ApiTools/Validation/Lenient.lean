import ApiTools.Json.Value
import ApiTools.Number.Numeral
import ApiTools.Text.Blank
import ApiTools.Validation.Issue

/-!
# Lenient reading

Values are read as the type that is wanted where no meaning is lost: a whole number from an
integral double, a truth value or a decimal text; a double from a whole number, a truth value
or a text; a truth value from zero, one or the usual words. A text is read from texts alone.
-/

namespace ApiTools

namespace Lenient

variable {ε : Type}

/-- The text without the white space at its ends. -/
def trimmed (t : Text) : Text := t.trim CodePoint.isWhiteSpace

/-- Do two underscores stand side by side? -/
def hasDoubleUnderscore : Text → Bool
  | c :: d :: rest => (c == '_' && d == '_') || hasDoubleUnderscore (d :: rest)
  | _ => false

/-- The text without its underscores, if it has some and they are single and inside. -/
def dropUnderscores? (t : Text) : Option Text :=
  let mark : CodePoint := '_'
  if mark ∈ t ∧ t.head? ≠ some mark ∧ t.getLast? ≠ some mark ∧ ¬hasDoubleUnderscore t then
    some (t.filter (· ≠ mark))
  else none

/-- The whole number that digits, with a minus sign before them or not, stand for. -/
def plainInt? (t : Text) : Option Int :=
  let (negative, digits) :=
    match t with
    | c :: rest => if c = '-' then (true, rest) else (false, t)
    | [] => (false, [])
  if digits ≠ [] ∧ digits.all CodePoint.isAsciiDigit then
    some (if negative then -(Text.digitsValue digits : Int) else Text.digitsValue digits)
  else none

/-- The rest of a number whose zeros at the start, the last of them being `zero`, have been
passed over. -/
def behindZeros? (zero : CodePoint) : Text → Option Text
  | [] => some [zero]
  | c :: rest =>
    if c = '0' ∨ c = '_' then behindZeros? c rest
    else if c.isAsciiDigit then some (c :: rest)
    else if c = '.' then some (zero :: c :: rest)
    else none

/-- A number without the zeros at its start. -/
def withoutZeros? : Text → Option Text
  | [] => none
  | c :: rest =>
    if c = '0' then behindZeros? c rest
    else if c.isAsciiDigit ∨ c = '-' then some (c :: rest)
    else none

/-- A number without a point that only zeros, and at least one, stand behind. -/
def withoutPoint? (t : Text) : Option Text :=
  match t.cut '.' with
  | (whole, none) => some whole
  | (whole, some part) =>
    if part ≠ [] ∧ part.all (fun (c : CodePoint) ↦ c == '0') then some whole else none

/-- The whole number that a text stands for, with a sign, underscores between digits, zeros at
the start or a point with zeros. -/
def intOfText? (t : Text) : Option Int :=
  match plainInt? t with
  | some i => some i
  | none => do
    let unsigned := match t with
      | c :: rest => if c = '+' then rest else t
      | [] => []
    let whole ← withoutPoint? (← withoutZeros? unsigned)
    plainInt? ((dropUnderscores? whole).getD whole)

/-- The longest text that is read as a whole number. -/
def maximalLength : Nat := 4300

/-- A value as a whole number. -/
def int : Value ε → Except Issue.Kind Int
  | .int i => .ok i
  | .bool b => .ok (if b then 1 else 0)
  | .float x =>
    if !x.isFinite then .error .finiteNumber
    else
      match x.toInt? with
      | none => .error .intFromFloat
      | some i => if i.natAbs < 0x8000000000000000 then .ok i else .error .intParsingSize
  | .string t =>
    let t := trimmed t
    if maximalLength < t.length then .error .intParsingSize
    else
      match intOfText? t with
      | some i => .ok i
      | none => .error .intParsing
  | _ => .error .intType

/-- A value as a double. -/
def float : Value ε → Except Issue.Kind Double
  | .float x => .ok x
  | .int i => if (Double.ofInt i).isFinite then .ok (Double.ofInt i) else .error .floatType
  | .bool b => .ok (Double.ofInt (if b then 1 else 0))
  | .string t =>
    match Double.ofNumeral? (trimmed t) with
    | some x => .ok x
    | none =>
      match (dropUnderscores? t).bind Double.ofNumeral? with
      | some x => .ok x
      | none => .error .floatParsing
  | _ => .error .floatType

/-- The words for true. -/
def trueWords : List Text := ["1", "on", "t", "true", "y", "yes"]

/-- The words for false. -/
def falseWords : List Text := ["0", "off", "f", "false", "n", "no"]

/-- Zero or one as a truth value. -/
def boolOfInt (i : Int) : Except Issue.Kind Bool :=
  if i = 0 then .ok false else if i = 1 then .ok true else .error .boolParsing

/-- A value as a truth value. -/
def bool : Value ε → Except Issue.Kind Bool
  | .bool b => .ok b
  | .int i => boolOfInt i
  | .float x =>
    match x.toInt? with
    | some i => if i.natAbs < 0x8000000000000000 then boolOfInt i else .error .boolType
    | none => .error .boolType
  | .string t =>
    let word := t.toAsciiLower
    if word ∈ trueWords then .ok true
    else if word ∈ falseWords then .ok false
    else .error .boolParsing
  | _ => .error .boolType

/-- A value as a text. -/
def text : Value ε → Except Issue.Kind Text
  | .string t => .ok t
  | _ => .error .stringType

/-- A value as one of some texts. -/
def oneOf (texts : List Text) : Value ε → Except Issue.Kind Text
  | .string t => if t ∈ texts then .ok t else .error .literal
  | _ => .error .literal

/-- A result of reading as a checked value. -/
def checked {α : Type} : Except Issue.Kind α → Checked α
  | .ok a => .ok a
  | .error kind => Checked.refuse kind

/-- A value that may be null. -/
def optional {α : Type} (read : Value ε → Checked α) : Value ε → Checked (Option α)
  | .null => .ok none
  | v => some <$> read v

end Lenient

end ApiTools
