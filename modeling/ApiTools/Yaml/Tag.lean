import ApiTools.Text.Pattern

/-!
# Kinds of YAML nodes

A node says of what kind it is, or its kind is seen from a plain text: the words for truth values
and for nothing, numbers in four bases or in parts of sixty, and dates.
-/

namespace ApiTools

namespace Yaml

/-- The kinds of nodes. -/
inductive Tag where
  | null
  | bool
  | int
  | float
  | text
  | binary
  | timestamp
  | sequence
  | mapping
  | set
  | orderedMapping
  | pairs
  /-- The entries of another mapping go here. -/
  | merge
  /-- The entry that stands for the whole of its mapping. -/
  | default
  /-- A kind that plain data does not have. -/
  | unknown
deriving DecidableEq

namespace Tag

/-- The common start of the names of the kinds. -/
def common : Text := "tag:yaml.org,2002:"

/-- The kinds by their names. -/
def named : List (Text × Tag) := [
  ("null", .null), ("bool", .bool), ("int", .int), ("float", .float), ("str", .text),
  ("binary", .binary), ("timestamp", .timestamp), ("seq", .sequence), ("map", .mapping),
  ("set", .set), ("omap", .orderedMapping), ("pairs", .pairs), ("merge", .merge),
  ("value", .default)]

/-- The kind of a full name. -/
def ofName (t : Text) : Tag :=
  match named.find? fun (name, _) ↦ common ++ name = t with
  | some (_, tag) => tag
  | none => .unknown

/-- A digit. -/
def digit : Pattern := Pattern.one CodePoint.isAsciiDigit

/-- One of some characters. -/
def anyOf (chars : String) : Pattern := Pattern.one (Text.ofString chars).contains

/-- A sign, or none. -/
def sign : Pattern := Pattern.maybe (anyOf "-+")

/-- Any number of characters, which can be matched in one way only. -/
def run (p : CodePoint → Bool) : Pattern := fun t ↦
  (List.range ((t.takeWhile p).length + 1)).map t.drop

/-- Digits and underscores. -/
def digitRun : Pattern := run fun c ↦ c.isAsciiDigit || c == '_'

/-- Parts of sixty, each behind a colon. -/
def sixties : Pattern :=
  Pattern.oneOrMore (Pattern.inOrder [Pattern.word ":", Pattern.maybe (anyOf "012345"), digit])

/-- Whole numbers. -/
def intPattern : Pattern :=
  Pattern.seq sign (Pattern.oneOf [
    Pattern.inOrder [Pattern.word "0b", anyOf "01_", run fun c ↦ c == '0' || c == '1' || c == '_'],
    Pattern.inOrder [Pattern.word "0", anyOf "01234567_",
      run (Text.ofString "01234567_").contains],
    Pattern.word "0",
    Pattern.seq (anyOf "123456789") digitRun,
    Pattern.inOrder [Pattern.word "0x", anyOf "0123456789abcdefABCDEF_",
      run fun c ↦ c.hexValue?.isSome || c == '_'],
    Pattern.inOrder [anyOf "123456789", digitRun, sixties]])

/-- The power of ten of a number, whose sign has to be written. -/
def power : Pattern :=
  Pattern.maybe (Pattern.inOrder [anyOf "eE", anyOf "-+", Pattern.oneOrMore digit])

/-- Numbers with a point. -/
def floatPattern : Pattern :=
  Pattern.oneOf [
    Pattern.inOrder [sign, digit, digitRun, Pattern.word ".", digitRun, power],
    Pattern.inOrder [Pattern.word ".", digit, digitRun, power],
    Pattern.inOrder [sign, digit, digitRun, sixties, Pattern.word ".", digitRun],
    Pattern.inOrder [sign, Pattern.word ".",
      Pattern.oneOf [Pattern.word "inf", Pattern.word "Inf", Pattern.word "INF"]],
    Pattern.inOrder [Pattern.word ".",
      Pattern.oneOf [Pattern.word "nan", Pattern.word "NaN", Pattern.word "NAN"]]]

/-- Two digits. -/
def twoDigits : Pattern := Pattern.seq digit digit

/-- One digit or two. -/
def upToTwoDigits : Pattern := Pattern.seq digit (Pattern.maybe digit)

/-- Spaces and tabs. -/
def blanks : Pattern := run fun c ↦ c == ' ' || c == '\t'

/-- A time of day with its zone. -/
def timeOfDay : Pattern :=
  Pattern.inOrder [
    Pattern.oneOf [anyOf "Tt", Pattern.seq (anyOf " \t") blanks],
    upToTwoDigits, Pattern.word ":", twoDigits, Pattern.word ":", twoDigits,
    Pattern.maybe (Pattern.seq (Pattern.word ".") (run CodePoint.isAsciiDigit)),
    Pattern.maybe (Pattern.seq blanks (Pattern.oneOf [Pattern.word "Z",
      Pattern.inOrder [anyOf "-+", upToTwoDigits,
        Pattern.maybe (Pattern.seq (Pattern.word ":") twoDigits)]]))]

/-- Days, and days with a time. -/
def timestampPattern : Pattern :=
  Pattern.inOrder [twoDigits, twoDigits, Pattern.word "-", Pattern.oneOf [
    Pattern.inOrder [twoDigits, Pattern.word "-", twoDigits],
    Pattern.inOrder [upToTwoDigits, Pattern.word "-", upToTwoDigits, timeOfDay]]]

/-- The words for truth values. -/
def boolWords : List Text :=
  (["yes", "Yes", "YES", "no", "No", "NO", "true", "True", "TRUE", "false", "False", "FALSE",
    "on", "On", "ON", "off", "Off", "OFF"] : List String).map Text.ofString

/-- The words for nothing. -/
def nullWords : List Text := ["~", "null", "Null", "NULL", ""]

/-- Is a text one of some words, up to a line break at its end? -/
def isWord (words : List Text) (t : Text) : Bool :=
  (Pattern.oneOf (words.map Pattern.word)).takesLine t

/-- Can a number or a date start with a character? -/
def startsNumber (c : CodePoint) : Bool := (Text.ofString "-+0123456789.").contains c

/-- The kind that is seen from a text. -/
def ofText (t : Text) : Tag :=
  if isWord boolWords t then .bool
  else if t.head?.any startsNumber && floatPattern.takesLine t then .float
  else if t.head?.any startsNumber && intPattern.takesLine t then .int
  else if isWord ["<<"] t then .merge
  else if isWord nullWords t && t ≠ ("\n" : Text) then .null
  else if t.head?.any startsNumber && timestampPattern.takesLine t then .timestamp
  else if isWord ["="] t then .default
  else if isWord ["!", "&", "*"] t then .unknown
  else .text

end Tag

end Yaml

end ApiTools
