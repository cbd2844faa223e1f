import ApiTools.Text.Basic

/-!
# Patterns

A pattern takes a text to the rests that it can leave behind a match at the start. Patterns are
put together by sequence, choice and repetition; a text is matched when nothing, or at most one
line end, can be left.
-/

namespace ApiTools

/-- What can be left of a text behind a match at its start. -/
abbrev Pattern := Text → List Text

namespace Pattern

/-- One code point of a class. -/
def one (p : CodePoint → Bool) : Pattern
  | c :: rest => if p c then [rest] else []
  | [] => []

/-- A fixed text. -/
def word (w : Text) : Pattern := fun t ↦ if t.startsWith w then [t.drop w.length] else []

/-- A fixed text in small ASCII letters, in any letter case. -/
def caselessWord (w : Text) : Pattern := fun t ↦
  if Text.toAsciiLower (t.take w.length) = w then [t.drop w.length] else []

/-- Nothing. -/
def nothing : Pattern := fun t ↦ [t]

/-- One pattern, then another. -/
def seq (first second : Pattern) : Pattern := fun t ↦ (first t).flatMap second

/-- Patterns one after the other. -/
def inOrder (patterns : List Pattern) : Pattern := patterns.foldr seq nothing

/-- Any of some patterns. -/
def oneOf (patterns : List Pattern) : Pattern := fun t ↦ patterns.flatMap fun p ↦ p t

/-- A pattern or nothing. -/
def maybe (p : Pattern) : Pattern := oneOf [p, nothing]

/-- A pattern any number of times, as long as the rests get shorter and at most as often as the
bound says. -/
def repeated (p : Pattern) : (bound : Nat) → Pattern
  | 0, t => [t]
  | bound + 1, t =>
    t :: ((p t).filter fun rest ↦ rest.length < t.length).flatMap (repeated p bound)

/-- A pattern any number of times. -/
def many (p : Pattern) : Pattern := fun t ↦ repeated p t.length t

/-- A pattern at least once. -/
def oneOrMore (p : Pattern) : Pattern := seq p (many p)

/-- Does the pattern take the whole text? -/
def takesAll (p : Pattern) (t : Text) : Bool := (p t).any List.isEmpty

/-- Does the pattern take the text up to a line end at most? -/
def takesLine (p : Pattern) (t : Text) : Bool :=
  (p t).any fun rest ↦ rest == [] || rest == [CodePoint.ofChar '\n']

end Pattern

end ApiTools
