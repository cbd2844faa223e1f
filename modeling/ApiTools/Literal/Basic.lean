import ApiTools.Json.Writer
import ApiTools.Text.Printable

/-!
# Source literals

The notation in which generated servers hold values, and in which reports show them. A text is
quoted with single quotes, unless it holds those and no double quotes; what cannot be shown is
escaped by number.
-/

namespace ApiTools

namespace Literal

/-- The quote that surrounds a text. -/
def quoteMark (t : Text) : CodePoint :=
  if CodePoint.ofChar '\'' ∈ t ∧ CodePoint.ofChar '"' ∉ t then '"' else '\''

/-- An escape by number, as short as the number allows. -/
def numericEscape (n : Nat) : Text :=
  if n < 0x100 then "\\x" ++ Text.hexDigits 2 n
  else if n < 0x10000 then "\\u" ++ Text.hexDigits 4 n
  else "\\U" ++ Text.hexDigits 8 n

/-- A code point inside quotes. -/
def escape (mark c : CodePoint) : Text :=
  if c = mark ∨ c = '\\' then ['\\', c]
  else if c = '\t' then "\\t"
  else if c = '\n' then "\\n"
  else if c = '\r' then "\\r"
  else if c.isPrintable then [c]
  else numericEscape c.val

/-- The literal of a text. -/
def text (t : Text) : Text :=
  let mark := quoteMark t
  mark :: t.flatMap (escape mark) ++ [mark]

/-- A byte inside quotes: only ASCII is shown as it is. -/
def escapeByte (mark : CodePoint) (b : UInt8) : Text :=
  if 0x20 ≤ b.toNat ∧ b.toNat < 0x7F then escape mark (CodePoint.ofChar (Char.ofNat b.toNat))
  else if b.toNat = 9 then "\\t"
  else if b.toNat = 10 then "\\n"
  else if b.toNat = 13 then "\\r"
  else numericEscape b.toNat

/-- The literal of a byte string. -/
def bytes (bs : Bytes) : Text :=
  let mark : CodePoint :=
    if bs.any (fun b ↦ b.toNat == 0x27) ∧ ¬bs.any (fun b ↦ b.toNat == 0x22) then '"' else '\''
  "b" ++ mark :: bs.flatMap (escapeByte mark) ++ [mark]

/-- The literal of a truth value. -/
def bool (b : Bool) : Text := if b then "True" else "False"

mutual

/-- The literal of a value. -/
def value : Value Bytes → Text
  | .null => "None"
  | .bool b => bool b
  | .int i => Text.ofInt i
  | .float x => x.render Double.literalLayout
  | .string t => text t
  | .array [] => "[]"
  | .array (v :: rest) => "[" ++ value v ++ moreItems rest ++ "]"
  | .object [] => "\x7b\x7d"
  | .object ((name, v) :: rest) =>
    "\x7b" ++ text name ++ ": " ++ value v ++ moreFields rest ++ "\x7d"
  | .other b => bytes b

/-- The items behind the first one, each behind a comma. -/
def moreItems : List (Value Bytes) → Text
  | [] => []
  | v :: rest => ", " ++ value v ++ moreItems rest

/-- The fields behind the first one, each behind a comma. -/
def moreFields : List (Text × Value Bytes) → Text
  | [] => []
  | (name, v) :: rest => ", " ++ text name ++ ": " ++ value v ++ moreFields rest

end

/-- A value as it is shown to a reader: a text without quotes, anything else as its literal. -/
def shown : Value Bytes → Text
  | .string t => t
  | v => value v

/-- The literal of a list of texts. -/
def texts (ts : List Text) : Text := "[" ++ Text.join ", " (ts.map text) ++ "]"

end Literal

end ApiTools
