import ApiTools.Text.Ranges

/-!
# Blanks

Two classes. The white space of Unicode's property of that name, and the wider class of
blanks, which adds the four information separators.
-/

namespace ApiTools

namespace CodePoint

/-- Ranges of the blanks. -/
def blankRanges : List (Nat × Nat) := [
  (9, 13), (28, 32), (133, 133), (160, 160), (5760, 5760), (8192, 8202), (8232, 8233),
  (8239, 8239), (8287, 8287), (12288, 12288)]

/-- Ranges of the white space property. -/
def whiteSpaceRanges : List (Nat × Nat) := [
  (9, 13), (32, 32), (133, 133), (160, 160), (5760, 5760), (8192, 8202), (8232, 8233),
  (8239, 8239), (8287, 8287), (12288, 12288)]

/-- White space or an information separator. -/
def isBlank (c : CodePoint) : Bool := within blankRanges c.val

/-- The white space property. -/
def isWhiteSpace (c : CodePoint) : Bool := within whiteSpaceRanges c.val

end CodePoint

end ApiTools
