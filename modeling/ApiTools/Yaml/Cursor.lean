import ApiTools.Text.Basic

/-!
# Places in a YAML text

A place is what is still to be read, with the line and the column reached. The end of the text
counts as a blank, like a line break, wherever something has to be followed by one.
-/

namespace ApiTools

namespace Yaml

/-- A place in a text. -/
structure Cursor where
  rest : Text
  line : Nat
  column : Nat
  index : Nat

/-- What is wrong with a YAML text. -/
inductive Fault where
  /-- The text is not YAML, or asks for something that plain data does not have. -/
  | malformed
  /-- A value of the announced kind cannot be made from the text given for it. -/
  | badValue (report : Text)
  /-- An escape names a number that no code point can have. -/
  | numberRange
  /-- The text of a truth value is not one of its words. -/
  | unknownWord
  /-- A number has no text at all. -/
  | emptyNumber
  /-- The text of a date is not one. -/
  | notATimestamp
  /-- A name is of a kind that JSON has no names of. -/
  | unusableName
  /-- A whole number has too many digits to be written. -/
  | longNumber
  /-- A collection contains itself. -/
  | circular
deriving DecidableEq

/-- The characters that end a line. -/
def isBreak (c : CodePoint) : Bool :=
  c.val == 10 || c.val == 13 || c.val == 0x85 || c.val == 0x2028 || c.val == 0x2029

/-- The end of the text or of a line. -/
def endsLine : Option CodePoint → Bool
  | none => true
  | some c => isBreak c

/-- The end of the text or of a line, or a space. -/
def endsField : Option CodePoint → Bool
  | none => true
  | some c => isBreak c || c.val == 32

/-- The end of the text or of a line, a space or a tab. -/
def endsWord : Option CodePoint → Bool
  | none => true
  | some c => isBreak c || c.val == 32 || c.val == 9

/-- Spaces and tabs. -/
def isSpaceOrTab (c : CodePoint) : Bool := c.val == 32 || c.val == 9

/-- The characters of names: ASCII letters and digits, the hyphen and the underscore. -/
def isNameChar (c : CodePoint) : Bool := c.isAsciiWord || c == CodePoint.ofChar '-'

/-- The characters that may stand in a document. -/
def isAllowed (c : CodePoint) : Bool :=
  c.val == 9 || c.val == 10 || c.val == 13 || (0x20 ≤ c.val && c.val ≤ 0x7E) || c.val == 0x85
    || (0xA0 ≤ c.val && c.val ≤ 0xD7FF) || (0xE000 ≤ c.val && c.val ≤ 0xFFFD) || 0x10000 ≤ c.val

/-- The mark that may open a text. -/
def isByteOrderMark (c : CodePoint) : Bool := c.val == 0xFEFF

/-- The report of what is wrong with a YAML text. -/
def Fault.message : Fault → Text
  | .malformed => "the text is malformed"
  | .badValue report => report
  | .numberRange => "the number is too large"
  | .unknownWord => "the word is unknown"
  | .emptyNumber => "string index out of range"
  | .notATimestamp => "the text is no date"
  | .unusableName => "keys must be str, int, float, bool or None"
  | .longNumber => Text.digitsReport
  | .circular => "Circular reference detected"

namespace Cursor

/-- The start of a text. -/
def start (t : Text) : Cursor := ⟨t, 0, 0, 0⟩

/-- The next character. -/
def peek (c : Cursor) : Option CodePoint := c.rest.head?

/-- The character `n` places ahead. -/
def ahead (c : Cursor) (n : Nat) : Option CodePoint := c.rest[n]?

/-- Does the next character belong to a class? -/
def sees (c : Cursor) (p : CodePoint → Bool) : Bool := c.peek.any p

/-- The place behind the next character. A carriage return with a line feed behind it ends no
line of its own, and a byte order mark takes no column. -/
def advance (c : Cursor) : Cursor :=
  match c.rest with
  | [] => c
  | d :: rest =>
    let isPairStart := d.val == 13 && (rest.head?.any fun e ↦ e.val == 10)
    if isBreak d && !isPairStart then ⟨rest, c.line + 1, 0, c.index + 1⟩
    else ⟨rest, c.line, if isByteOrderMark d then c.column else c.column + 1, c.index + 1⟩

/-- The place behind the next `n` characters. -/
def skip (c : Cursor) : Nat → Cursor
  | 0 => c
  | n + 1 => c.advance.skip n

/-- The characters of a class that come next, and the place behind them. -/
def takeWhile (c : Cursor) (p : CodePoint → Bool) : Text × Cursor :=
  let taken := c.rest.takeWhile p
  (taken, c.skip taken.length)

/-- The place behind the characters of a class. -/
def skipWhile (c : Cursor) (p : CodePoint → Bool) : Cursor := (c.takeWhile p).2

/-- The place behind spaces. -/
def skipSpaces (c : Cursor) : Cursor := c.skipWhile fun d ↦ d.val == 32

/-- The place at the end of the line if a comment comes next. -/
def skipComment (c : Cursor) : Cursor :=
  if c.sees (· == CodePoint.ofChar '#') then c.skipWhile fun d ↦ !isBreak d else c

/-- A line break and the place behind it, if one comes next. Only the two separators of lines and
paragraphs are kept as they are; every other break is read as a line feed. -/
def lineBreak? (c : Cursor) : Option (Text × Cursor) :=
  match c.rest with
  | [] => none
  | d :: rest =>
    if d.val == 13 && (rest.head?.any fun e ↦ e.val == 10) then some (['\n'], c.skip 2)
    else if d.val == 0x2028 || d.val == 0x2029 then some ([d], c.advance)
    else if isBreak d then some (['\n'], c.advance)
    else none

/-- Does one of the two lines that part documents start here? -/
def seesSeparator (c : Cursor) : Bool :=
  (c.rest.startsWith "---" || c.rest.startsWith "...") && endsWord (c.ahead 3)

/-- The place behind what may follow on a line, a comment and the line break; anything else is
refused. -/
def finishLine? (c : Cursor) : Option Cursor :=
  let d := c.skipSpaces.skipComment
  if endsLine d.peek then some ((d.lineBreak?.map (·.2)).getD d) else none

end Cursor

end Yaml

end ApiTools
