import ApiTools.Encoding.Utf8

/-!
# Query strings

The form encoding of names with values: letters, digits and `_.-~` stand for themselves, a
blank is a plus sign, every other byte of the UTF-8 form is a percent sign with two digits.
-/

namespace ApiTools

namespace Query

/-- The code points that stand for themselves. -/
def isUnreserved (c : CodePoint) : Bool :=
  c.isAsciiWord || c == '.' || c == '-' || c == '~'

/-- A hexadecimal digit in upper case. -/
def upperHex (n : Nat) : CodePoint :=
  if n < 10 then CodePoint.ofChar (Nat.digitChar n) else CodePoint.ofChar (Char.ofNat (n + 0x37))

/-- A byte as a percent sign and two digits. -/
def percent (b : UInt8) : Text := ['%', upperHex (b.toNat / 16), upperHex (b.toNat % 16)]

/-- A code point in its encoded form. -/
def encodeChar (c : CodePoint) : Text :=
  if isUnreserved c then [c]
  else if c = ' ' then ['+']
  else (Encoding.utf8Bytes c).flatMap percent

/-- A text in its encoded form, if it holds no surrogate. -/
def encodeText? (t : Text) : Option Text :=
  if t.all fun c ↦ !c.isSurrogate then some (t.flatMap encodeChar) else none

/-- One name with its value. -/
def encodePair? (pair : Text × Text) : Option Text := do
  return (← encodeText? pair.1) ++ "=" ++ (← encodeText? pair.2)

/-- The query string of names with values. -/
def encode? (pairs : List (Text × Text)) : Option Text := do
  return Text.join "&" (← pairs.mapM encodePair?)

end Query

end ApiTools
