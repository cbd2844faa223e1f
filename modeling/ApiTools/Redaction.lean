import ApiTools.Request.Argument

/-!
# Redaction

What is written to logs does not show values under names that look like credentials, except inside
of lists, which are shown as they are.
-/

namespace ApiTools

namespace Redaction

/-- Stands in the place of every hidden value. -/
def mask : Text := "***REDACTED***"

/-- The words that make a name sensitive wherever they stand in it. -/
def sensitiveWords : List Text :=
  ["token", "secret", "apikey", "api_key", "api-key", "password", "authorization"]

/-- The ASCII letter that a code point matches when letter case is ignored, or the code point
itself. Beside the capitals there are the long s, the Kelvin sign and the two forms of i that
differ in their dot. -/
def caseless (c : CodePoint) : CodePoint :=
  if c.val = 0x17F then 's'
  else if c.val = 0x212A then 'k'
  else if c.val = 0x130 ∨ c.val = 0x131 then 'i'
  else c.toAsciiLower

/-- Does a name hold one of the words, in any letter case? -/
def isSensitive (name : Text) : Bool :=
  sensitiveWords.any fun word ↦ word.hasInfix (name.map caseless)

variable {ε : Type}

mutual

/-- A value with the sensitive fields of its objects hidden. Lists are not looked into. -/
def value : Value ε → Value ε
  | .object fields => .object (payload fields)
  | v => v

/-- Fields with the sensitive ones hidden, at every depth of objects. -/
def payload : List (Text × Value ε) → List (Text × Value ε)
  | [] => []
  | (name, v) :: rest =>
    (name, if isSensitive name then .string mask else value v) :: payload rest

end

/-- Headers with the sensitive ones hidden. -/
def headers (hs : Fields Text) : Fields Text :=
  hs.map fun (name, v) ↦ (name, if isSensitive name then mask else v)

end Redaction

end ApiTools
