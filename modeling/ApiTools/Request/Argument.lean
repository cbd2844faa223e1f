import ApiTools.Json.Writer
import ApiTools.Literal.Basic

/-!
# Arguments

The values that a call gives to parameters: JSON, and byte strings as they are. An argument
that is null counts as not given.
-/

namespace ApiTools

/-- A value given to a call. -/
abbrev Argument := Value Bytes

/-- The arguments of a call by the declared names of the parameters. -/
abbrev Arguments := Fields Argument

/-- The argument of a name, unless it is missing or null. -/
def Arguments.given? (args : Arguments) (name : Text) : Option Argument :=
  match args.get? name with
  | some .null => none
  | found => found

namespace Argument

/-- The bound below which whole doubles are written without a point: 10^21. -/
def wholeBound : Nat := 1000000000000000000000

/-- A double inside a URL or a header: a whole number below 10^21 has no point. -/
def formatDouble (x : Double) : Text :=
  match x.toInt? with
  | some i => if i.natAbs < wholeBound then Text.ofInt i else x.render Double.literalLayout
  | none => x.render Double.literalLayout

/-- An argument inside a URL or a header. Only a byte string inside of a list or an object and a
whole number of too many digits have no text. -/
def format : Argument → Except Value.Unwritable Text
  | .null => .ok "None"
  | .bool b => .ok (if b then "true" else "false")
  | .int i => if Text.isShort i then .ok (Text.ofInt i) else .error .longNumber
  | .float x => .ok (formatDouble x)
  | .string t => .ok t
  | .array items => do
    return Json.write .compactAscii (← (Value.array items : Argument).toJson false)
  | .object fields => do
    return Json.write .compactAscii (← (Value.object fields : Argument).toJson false)
  | .other b => .ok (Literal.bytes b)

end Argument

end ApiTools
