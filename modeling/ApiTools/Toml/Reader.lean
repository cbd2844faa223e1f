import ApiTools.Literal.Reader

/-!
# Reading TOML

The reader takes a basic string to the text that it stands for. An escape by number has four or
eight digits and denotes a Unicode scalar value; half of a surrogate pair is refused, and so is
every control character but the tab where it stands as it is. In a file the value of a key is looked
up on the lines of its table.

Only values that are a basic string on the line of their key are read. Dotted and quoted keys,
comments, and blanks other than one on either side of the equals sign are not known.
-/

namespace ApiTools

namespace Toml

/-- Does a code point stand for itself in a basic string? -/
def isPlain (c : CodePoint) : Bool :=
  c ≠ '"' && c ≠ '\\' && (c = '\t' || 0x20 ≤ c.val) && c.val ≠ 0x7F && !c.isSurrogate

/-- What a backslash and one letter or sign stand for. -/
def shortEscapes : List (CodePoint × CodePoint) :=
  [('"', '"'), ('\\', '\\'), ('b', '\x08'), ('t', '\t'), ('n', '\n'), ('f', '\x0c'), ('r', '\r')]

/-- The scalar value of the number that hexadecimal digits are written for. -/
def scalar? (digits : Text) : Option CodePoint :=
  ((Literal.hexNumber? digits).bind CodePoint.ofNat?).filter (!·.isSurrogate)

/-- A scalar value by its number, behind the letter that says of how many digits it is written, and
how many code points that takes. -/
def numbered? (count : Nat) (t : Text) : Option (CodePoint × Nat) :=
  if t.length < count then none else (scalar? (t.take count)).map fun c ↦ (c, count + 1)

/-- What the text behind a backslash stands for, and how many code points it takes of it. -/
def escaped? : Text → Option (CodePoint × Nat)
  | [] => none
  | c :: rest =>
    if c = 'u' then numbered? 4 rest
    else if c = 'U' then numbered? 8 rest
    else (shortEscapes.lookup c).map fun d ↦ (d, 1)

/-- The text of a basic string whose opening quote has been read, and what stands behind its closing
quote, with a number of code points still to be passed over. -/
def bodyFrom? : Nat → Text → Option (Text × Text)
  | _, [] => none
  | skip + 1, _ :: t => bodyFrom? skip t
  | 0, c :: t =>
    if c = '"' then some ([], t)
    else if c = '\\' then
      match escaped? t with
      | some (d, length) => (bodyFrom? length t).map fun r ↦ (d :: r.1, r.2)
      | none => none
    else if isPlain c then (bodyFrom? 0 t).map fun r ↦ (c :: r.1, r.2)
    else none

/-- The text of a basic string whose opening quote has been read, and what stands behind its closing
quote. -/
def body? (t : Text) : Option (Text × Text) := bodyFrom? 0 t

/-- The text of a basic string, with nothing behind it. -/
def basicString? : Text → Option Text
  | [] => none
  | c :: rest =>
    if c = '"' then
      match body? rest with
      | some (t, []) => some t
      | _ => none
    else none

/-- The lines of a table: those between its header and the next one. -/
def tableLines (table file : Text) : List Text :=
  let behind := ((Text.splitOn '\n' file).dropWhile (· ≠ "[" ++ table ++ "]")).drop 1
  behind.takeWhile fun line ↦ line.head? ≠ some (CodePoint.ofChar '[')

/-- The value of a key in a table, as it is written: what stands behind the equals sign. -/
def valueText? (table key file : Text) : Option Text :=
  let assigned := key ++ " = "
  ((tableLines table file).find? fun line ↦ line.startsWith assigned).map
    (·.drop assigned.length)

/-- The text that a key of a table has in a file. -/
def text? (table key file : Text) : Option Text :=
  (valueText? table key file).bind basicString?

end Toml

end ApiTools
