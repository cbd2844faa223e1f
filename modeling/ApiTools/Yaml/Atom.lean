import ApiTools.Literal.Basic
import ApiTools.Number.Arithmetic
import ApiTools.Number.Typed
import ApiTools.Yaml.Cursor
import ApiTools.Yaml.Tag
import ApiTools.Yaml.Timestamp

/-!
# Simple values

The values that a text can stand for, by the kind of its node.
-/

namespace ApiTools

namespace Yaml

/-- A value without parts. -/
inductive Atom where
  | null
  | bool (b : Bool)
  | int (i : Int)
  | float (x : Double)
  | text (t : Text)
  | binary (b : Bytes)
  | timestamp (t : Timestamp)
deriving DecidableEq

namespace Atom

/-- The sign at the start of a number, and what follows it. -/
def signed (t : Text) : Bool × Text := Double.sign t

/-- A number from its parts of sixty, the greatest first. -/
def ofSixties (parts : List Int) : Int := parts.foldl (fun n part ↦ 60 * n + part) 0

/-- A sum of parts of sixty, the smallest first. -/
def sumOfSixties (sum : Double) (base : Nat) : List Double → Double
  | [] => sum
  | part :: rest => sumOfSixties (sum.add (part.mul (Double.ofInt base))) (60 * base) rest

/-- The report of a whole number that has too many digits to be read. -/
def longReport (digits : Nat) : Text :=
  "Exceeds the limit (4300 digits) for integer string conversion: value has " ++ Text.ofNat digits
    ++ " digits; use sys.set_int_max_str_digits() to increase the limit"

/-- The whole number in a base that a text stands for. Of decimal digits there may be only so
many. -/
def intIn (base : Nat) (t : Text) : Except Fault Int :=
  let digits := (Double.sign t.typed).2.takeWhile CodePoint.isAsciiDigit
  if base = 10 ∧ ¬Text.isWithin (some Text.digitLimit) digits then
    .error (.badValue (longReport digits.length))
  else
    match Typed.int? base t with
    | some n => .ok n
    | none =>
      .error (.badValue ("invalid literal for int() with base " ++ Text.ofNat base ++ ": "
        ++ Literal.text t))

/-- The number with a point that a text stands for. -/
def floatIn (t : Text) : Except Fault Double :=
  match Double.ofTyped? t with
  | some x => .ok x
  | none => .error (.badValue ("could not convert string to float: " ++ Literal.text t))

/-- The magnitude of a whole number, in the base that its start announces. -/
def intMagnitude (t : Text) : Except Fault Int :=
  if t = [] then .error .emptyNumber
  else if t.startsWith "0b" then intIn 2 (t.drop 2)
  else if t.startsWith "0x" then intIn 16 (t.drop 2)
  else if t.startsWith "0" ∧ t ≠ ("0" : Text) then intIn 8 t
  else if CodePoint.ofChar ':' ∈ t then ofSixties <$> (Text.splitOn ':' t).mapM (intIn 10)
  else intIn 10 t

/-- A text as a whole number. -/
def int? (t : Text) : Except Fault Int := do
  let (negative, t) := signed (t.filter fun (c : CodePoint) ↦ c ≠ '_')
  let n ← intMagnitude t
  return if negative then -n else n

/-- A text as a number with a point. -/
def float? (t : Text) : Except Fault Double :=
  let t := Text.toAsciiLower (t.filter fun (c : CodePoint) ↦ c ≠ '_')
  if t = [] then .error .emptyNumber
  else
    let (negative, t) := signed t
    let magnitude : Except Fault Double :=
      if t = (".inf" : Text) then .ok (.infinite false)
      else if t = (".nan" : Text) then .ok .nan
      else if CodePoint.ofChar ':' ∈ t then do
        let parts ← (Text.splitOn ':' t).mapM floatIn
        return sumOfSixties (Double.zero false) 1 parts.reverse
      else floatIn t
    magnitude.map fun x ↦ if negative then x.negate else x

/-- The value of a base 64 digit. -/
def base64Digit? (c : CodePoint) : Option Nat :=
  if c.isAsciiUpper then some (c.val - 0x41)
  else if c.isAsciiLower then some (c.val - 0x61 + 26)
  else if c.isAsciiDigit then some (c.val - 0x30 + 52)
  else if c = '+' then some 62
  else if c = '/' then some 63
  else none

/-- The bytes written in base 64, behind `place` digits of a group of four whose last bits are
`left`, and `pads` padding characters. Anything that is neither a digit nor padding is passed
over, and nothing is read behind a group that padding completes. -/
def base64? (place left pads : Nat) : Text → Option Bytes
  | [] => if place = 0 then some [] else none
  | c :: rest =>
    if c = '=' then
      if 2 ≤ place then
        if 4 ≤ place + pads + 1 then some [] else base64? place left (pads + 1) rest
      else base64? place left pads rest
    else
      match base64Digit? c with
      | none => base64? place left pads rest
      | some n =>
        match place with
        | 0 => base64? 1 n 0 rest
        | 1 => (base64? 2 (n % 16) 0 rest).map (UInt8.ofNat (4 * left + n / 16) :: ·)
        | 2 => (base64? 3 (n % 4) 0 rest).map (UInt8.ofNat (16 * left + n / 4) :: ·)
        | _ => (base64? 0 0 0 rest).map (UInt8.ofNat (64 * left + n) :: ·)

/-- The value of a given kind that a text stands for. -/
def ofText (tag : Tag) (t : Text) : Except Fault Atom :=
  match tag with
  | .null => .ok .null
  | .bool =>
    let word := t.toAsciiLower
    if word ∈ (["yes", "true", "on"] : List Text) then .ok (.bool true)
    else if word ∈ (["no", "false", "off"] : List Text) then .ok (.bool false)
    else .error .unknownWord
  | .int => (int? t).map .int
  | .float => (float? t).map .float
  | .text => .ok (.text t)
  | .binary =>
    if t.all CodePoint.isAscii then
      match base64? 0 0 0 t with
      | some b => .ok (.binary b)
      | none => .error .malformed
    else .error .malformed
  | .timestamp =>
    match Timestamp.ofText? t with
    | none => .error .notATimestamp
    | some d =>
      match d.flaw? with
      | none => .ok (.timestamp d)
      | some report => .error (.badValue report)
  | _ => .error .malformed

/-- A truth value or a whole number as a whole number. -/
def number? : Atom → Option Int
  | .bool b => some (if b then 1 else 0)
  | .int i => some i
  | .float x => x.toInt?
  | _ => none

/-- Equality of names: numbers are compared by value, so that a truth value equals zero or one,
and an undefined number equals nothing. -/
def sameName (a b : Atom) : Bool :=
  match a, b with
  | .float .nan, _ => false
  | _, .float .nan => false
  | a, b =>
    match a.number?, b.number? with
    | some m, some n => m == n
    | _, _ => decide (a = b)

/-- Has a value too many digits to be written? -/
def isLong : Atom → Bool
  | .int i => !Text.isShort i
  | _ => false

/-- Is a value of a kind that JSON has names of? -/
def isName : Atom → Bool
  | .binary _ | .timestamp _ => false
  | _ => true

/-- A value as JSON. Bytes and dates become texts. -/
def plain : Atom → Json
  | .null => .null
  | .bool b => .bool b
  | .int i => .int i
  | .float x => .float x
  | .text t => .string t
  | .binary b => .string (Literal.bytes b)
  | .timestamp t => .string t.text

/-- A value as JSON, if it can be written. -/
def toJson (a : Atom) : Except Fault Json :=
  if a.isLong then .error .longNumber else .ok a.plain

/-- A value as the name of a field: a text, or the JSON text of a value that has one. -/
def name : Atom → Except Fault Text
  | .text t => .ok t
  | .binary _ | .timestamp _ => .error .unusableName
  | a => (Json.write .spaced) <$> a.toJson

/-- A value as it is shown among others. -/
def literal : Atom → Text
  | .timestamp t => t.literal
  | .binary b => Literal.bytes b
  | a => Literal.value a.plain.lift

end Atom

end Yaml

end ApiTools
