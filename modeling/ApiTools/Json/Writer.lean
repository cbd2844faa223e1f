import ApiTools.Encoding.Utf8
import ApiTools.Json.Value
import ApiTools.Number.Shortest

/-!
# Writing JSON

A `Style` fixes the separators, the indentation and whether only ASCII is written; the text of
a value is then determined. Reading a text that was written gives the value back.

The canonical text orders the fields of every object by name and has no notation for
infinities, undefined numbers, whole numbers of too many digits and byte strings: it is refused at
the first of those in the order of the text.
-/

namespace ApiTools

/-- The choices that JSON leaves to a writer. -/
structure Json.Style where
  /-- Between two items or fields, before any line break. -/
  separator : Text
  /-- Between a name and its value. -/
  colon : Text
  /-- Write all other code points as escapes. -/
  asciiOnly : Bool
  /-- Blanks for each level, when every item stands on a line of its own. -/
  indent : Option Nat

namespace Json

namespace Style

/-- No blanks, and every code point but the control characters as it is. -/
def compact : Style := ⟨",", ":", false, none⟩

/-- No blanks, in ASCII. -/
def compactAscii : Style := ⟨",", ":", true, none⟩

/-- A blank behind each separator, in ASCII. -/
def spaced : Style := ⟨", ", ": ", true, none⟩

/-- An item a line, indented by two blanks for each level, in ASCII. -/
def indented : Style := ⟨",", ": ", true, some 2⟩

/-- The line break before something that stands at a given level. -/
def lineBreak (style : Style) (level : Nat) : Text :=
  match style.indent with
  | none => []
  | some width => CodePoint.ofChar '\n' :: List.replicate (width * level) (CodePoint.ofChar ' ')

end Style

/-- An escape by number: one unit of four digits, or a surrogate pair of two. -/
def numericEscape (c : CodePoint) : Text :=
  if c.val < 0x10000 then "\\u" ++ Text.hexDigits 4 c.val
  else
    let n := c.val - 0x10000
    "\\u" ++ Text.hexDigits 4 (0xD800 + n / 0x400) ++ "\\u" ++ Text.hexDigits 4 (0xDC00 + n % 0x400)

/-- A code point inside a string. -/
def escape (asciiOnly : Bool) (c : CodePoint) : Text :=
  if c = '"' then "\\\""
  else if c = '\\' then "\\\\"
  else if c = '\n' then "\\n"
  else if c = '\r' then "\\r"
  else if c = '\t' then "\\t"
  else if c.val = 8 then "\\b"
  else if c.val = 12 then "\\f"
  else if c.val < 0x20 then numericEscape c
  else if asciiOnly ∧ 0x7F ≤ c.val then numericEscape c
  else [c]

/-- A string with its quotes. -/
def quote (asciiOnly : Bool) (t : Text) : Text :=
  "\"" ++ t.flatMap (escape asciiOnly) ++ "\""

mutual

/-- The text of a value that stands at a given level. -/
def writeAt (style : Style) (level : Nat) : Json → Text
  | .null => "null"
  | .bool b => if b then "true" else "false"
  | .int i => Text.ofInt i
  | .float x => x.render Double.jsonLayout
  | .string t => quote style.asciiOnly t
  | .array [] => "[]"
  | .array (v :: rest) =>
    "[" ++ style.lineBreak (level + 1) ++ writeAt style (level + 1) v
      ++ writeItems style (level + 1) rest ++ style.lineBreak level ++ "]"
  | .object [] => "\x7b\x7d"
  | .object ((name, v) :: rest) =>
    "\x7b" ++ style.lineBreak (level + 1) ++ quote style.asciiOnly name ++ style.colon
      ++ writeAt style (level + 1) v
      ++ writeFields style (level + 1) rest ++ style.lineBreak level ++ "\x7d"
  | .other e => nomatch e

/-- The texts of the items behind the first one, each behind a separator. -/
def writeItems (style : Style) (level : Nat) : List Json → Text
  | [] => []
  | v :: rest =>
    style.separator ++ style.lineBreak level ++ writeAt style level v
      ++ writeItems style level rest

/-- The texts of the fields behind the first one, each behind a separator. -/
def writeFields (style : Style) (level : Nat) : List (Text × Json) → Text
  | [] => []
  | (name, v) :: rest =>
    style.separator ++ style.lineBreak level ++ quote style.asciiOnly name ++ style.colon
      ++ writeAt style level v ++ writeFields style level rest

end

/-- The text of a value. -/
def write (style : Style) (v : Json) : Text := writeAt style 0 v

end Json

namespace Value

variable {ε : Type}

mutual

/-- A value with the fields of every object in the order of their names. -/
def sortFields : Value ε → Value ε
  | .array items => .array (sortItems items)
  | .object fields =>
    .object ((sortValues fields).mergeSort fun f g ↦ f.1.precedes g.1)
  | v => v

/-- The same for the values of a list. -/
def sortItems : List (Value ε) → List (Value ε)
  | [] => []
  | v :: rest => v.sortFields :: sortItems rest

/-- The same for the values of some fields, which keep their own order. -/
def sortValues : List (Text × Value ε) → List (Text × Value ε)
  | [] => []
  | (name, v) :: rest => (name, v.sortFields) :: sortValues rest

end

/-- Why a value has no JSON text. -/
inductive Unwritable where
  | notFinite
  | bytes
  /-- A whole number has too many digits. -/
  | longNumber
deriving DecidableEq

/-- The report of a value without a JSON text. -/
def Unwritable.message : Unwritable → Text
  | .notFinite => "Out of range float values are not JSON compliant"
  | .bytes => "Object of type bytes is not JSON serializable"
  | .longNumber => Text.digitsReport

mutual

/-- A value as JSON; `finite` says whether infinities and undefined numbers are refused. Whole
numbers of too many digits always are. -/
def toJson (finite : Bool) : Value ε → Except Unwritable Json
  | .null => .ok .null
  | .bool b => .ok (.bool b)
  | .int i => if Text.isShort i then .ok (.int i) else .error .longNumber
  | .float x => if finite && !x.isFinite then .error .notFinite else .ok (.float x)
  | .string t => .ok (.string t)
  | .array items => do return .array (← toJsonItems finite items)
  | .object fields => do return .object (← toJsonFields finite fields)
  | .other _ => .error .bytes

/-- The same for the values of a list, from the first on. -/
def toJsonItems (finite : Bool) : List (Value ε) → Except Unwritable (List Json)
  | [] => .ok []
  | v :: rest => do return (← v.toJson finite) :: (← toJsonItems finite rest)

/-- The same for the values of some fields, from the first on. -/
def toJsonFields (finite : Bool) : List (Text × Value ε) → Except Unwritable (Fields Json)
  | [] => .ok []
  | (name, v) :: rest => do return (name, ← v.toJson finite) :: (← toJsonFields finite rest)

end

/-- The canonical text of a value. -/
def canonicalText (v : Value ε) : Except Unwritable Text := do
  return Json.write .compactAscii (← v.sortFields.toJson true)

end Value

end ApiTools
