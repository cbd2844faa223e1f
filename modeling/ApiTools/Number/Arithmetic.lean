import ApiTools.Number.Double

/-!
# Arithmetic on doubles

Sums and products are those of the exact quotients, rounded once.
-/

namespace ApiTools

namespace Double

/-- The number with the other sign. -/
def negate : Double → Double
  | .nan => .nan
  | .infinite negative => .infinite !negative
  | .finite negative e f => .finite (!negative) e f

/-- A finite number in units of the smallest one. -/
def units (negative : Bool) (e : Fin 2047) (f : Fin fractionCount) : Int :=
  let n := (ratio e f).1
  if negative then -(n : Int) else n

/-- The double nearest to some of the smallest units. -/
def ofUnits (zeroSign : Bool) (n : Int) (scale : Nat) : Double :=
  if n = 0 then zero zeroSign else ofRatio (n < 0) n.natAbs scale

/-- The sum of two numbers. Of two zeros with different signs it is the positive zero. -/
def add : Double → Double → Double
  | .nan, _ => .nan
  | _, .nan => .nan
  | .infinite a, .infinite b => if a = b then .infinite a else .nan
  | .infinite a, _ => .infinite a
  | _, .infinite b => .infinite b
  | .finite a e f, .finite b g h => ofUnits (a && b) (units a e f + units b g h) (Nat.pow 2 1074)

/-- The product of two numbers. -/
def mul : Double → Double → Double
  | .nan, _ => .nan
  | _, .nan => .nan
  | .infinite a, .infinite b => .infinite (a != b)
  | .infinite a, .finite b g h => if units b g h = 0 then .nan else .infinite (a != b)
  | .finite a e f, .infinite b => if units a e f = 0 then .nan else .infinite (a != b)
  | .finite a e f, .finite b g h => ofUnits (a != b) (units a e f * units b g h) (Nat.pow 2 2148)

end Double

end ApiTools
