import ApiTools.Text.Blank
import ApiTools.Text.Pattern

/-!
# Versions

The text of a version: numbers separated by points, and perhaps marks for an early release, a
later correction, a state of development and a local build.
-/

namespace ApiTools

namespace Spec

namespace Version

/-- Some ASCII digits. -/
def number : Pattern := Pattern.oneOrMore (Pattern.one CodePoint.isAsciiDigit)

/-- A separator before or behind a mark. -/
def separator : Pattern :=
  Pattern.maybe (Pattern.one fun c ↦ c == '-' || c == '_' || c == '.')

/-- One of some marks, with separators around it and perhaps a number. -/
def mark (words : List Text) : Pattern :=
  Pattern.inOrder [separator, Pattern.oneOf (words.map Pattern.caselessWord), separator,
    Pattern.maybe number]

/-- A letter or digit of a local build. -/
def localChars : Pattern :=
  Pattern.oneOrMore (Pattern.one fun c ↦ c.isAsciiLetter || c.isAsciiDigit)

/-- The pattern of versions. -/
def pattern : Pattern :=
  Pattern.inOrder [
    Pattern.maybe (Pattern.caselessWord "v"),
    Pattern.maybe (Pattern.seq number (Pattern.word "!")),
    number, Pattern.many (Pattern.seq (Pattern.word ".") number),
    Pattern.maybe (mark ["alpha", "a", "beta", "b", "preview", "pre", "c", "rc"]),
    Pattern.maybe (Pattern.oneOf [Pattern.seq (Pattern.word "-") number,
      mark ["post", "rev", "r"]]),
    Pattern.maybe (mark ["dev"]),
    Pattern.maybe (Pattern.inOrder [Pattern.word "+", localChars,
      Pattern.many (Pattern.seq
        (Pattern.one fun c ↦ c == '-' || c == '_' || c == '.') localChars)])]

end Version

/-- Is a text a version? Blanks around it do not matter. -/
def isVersion (t : Text) : Bool := Version.pattern.takesAll (t.trim CodePoint.isBlank)

end Spec

end ApiTools
