import ApiTools.Number.Shortest

/-!
# Spans of time

A number of seconds as it was given: whole, or a double.
-/

namespace ApiTools

/-- A number of seconds. -/
inductive Seconds where
  | whole (i : Int)
  | double (x : Double)
deriving DecidableEq

/-- The text of a number of seconds. -/
def Seconds.text : Seconds → Text
  | .whole i => Text.ofInt i
  | .double x => x.render Double.literalLayout

end ApiTools
