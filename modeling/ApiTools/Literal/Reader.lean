import ApiTools.Json.Value

/-!
# Reading source literals

The reader takes a literal of texts, truth values, lists and objects to the value that it stands
for. A text ends at the next quotes like those that it starts with, one or three of them, where a
backslash takes the code point behind it along (`content?`); only then is what is written with
backslashes put back (`unescape?`).

Numbers, comments, code points by their name and texts side by side are refused, and line ends are
kept as they are written.
-/

namespace ApiTools

namespace Literal

/-- The quotes that a text can stand in. -/
def isQuote (c : CodePoint) : Bool := c == '\'' || c == '"'

/-! ### Texts -/

/-- The content of a text whose opening quotes have been read, as it is written, and what stands
behind its closing quotes. A line ends in a text in one quote behind a backslash only. -/
def content? (mark : Text) : Text → Option (Text × Text)
  | [] => none
  | c :: rest =>
    if Text.startsWith (c :: rest) mark then some ([], (c :: rest).drop mark.length)
    else if c = '\\' then
      match rest with
      | [] => none
      | d :: rest => (content? mark rest).map fun r ↦ (c :: d :: r.1, r.2)
    else if mark.length = 1 ∧ (c = '\n' ∨ c = '\r') then none
    else (content? mark rest).map fun r ↦ (c :: r.1, r.2)

/-- The number that hexadecimal digits are written for. -/
def hexNumber? (digits : Text) : Option Nat :=
  digits.foldlM (fun n d ↦ d.hexValue?.map (16 * n + ·)) 0

/-- A code point by its number, behind the letter that says of how many digits it is written. -/
def numbered? (count : Nat) (t : Text) : Option (Text × Nat) :=
  if t.length < count then none
  else ((hexNumber? (t.take count)).bind CodePoint.ofNat?).map fun c ↦ ([c], count + 1)

/-- The digits of octal numbers. -/
def isOctalDigit (c : CodePoint) : Bool := 0x30 ≤ c.val && c.val ≤ 0x37

/-- A code point by its number in up to three octal digits. -/
def octal? (t : Text) : Option (Text × Nat) :=
  let digits := (t.take 3).takeWhile isOctalDigit
  (CodePoint.ofNat? (digits.foldl (fun n d ↦ 8 * n + d.digitValue) 0)).map fun c ↦
    ([c], digits.length)

/-- What a backslash and one letter stand for. -/
def shortEscapes : List (CodePoint × CodePoint) :=
  [('a', '\x07'), ('b', '\x08'), ('t', '\t'), ('n', '\n'), ('v', '\x0b'), ('f', '\x0c'),
    ('r', '\r')]

/-- What the text behind a backslash stands for, and how many code points it takes of it. A line
end stands for nothing; a backslash before anything that it gives no meaning stands for itself. -/
def escaped? : Text → Option (Text × Nat)
  | [] => none
  | c :: rest =>
    if c = '\n' then some ([], 1)
    else if c = '\\' ∨ isQuote c then some ([c], 1)
    else if c = 'x' then numbered? 2 rest
    else if c = 'u' then numbered? 4 rest
    else if c = 'U' then numbered? 8 rest
    else if c = 'N' then none
    else if isOctalDigit c then octal? (c :: rest)
    else
      match shortEscapes.lookup c with
      | some d => some ([d], 1)
      | none => some (['\\', c], 1)

/-- The text that the content of a literal stands for, with a number of code points still to be
passed over. -/
def unescapeFrom? : Nat → Text → Option Text
  | _, [] => some []
  | skip + 1, _ :: t => unescapeFrom? skip t
  | 0, c :: t =>
    if c = '\\' then
      match escaped? t with
      | some (chars, length) => (unescapeFrom? length t).map (chars ++ ·)
      | none => none
    else (unescapeFrom? 0 t).map (c :: ·)

/-- The text that the content of a literal stands for. -/
def unescape? (t : Text) : Option Text := unescapeFrom? 0 t

/-- A text at the start of a text, and what stands behind it. -/
def text? : Text → Option (Text × Text)
  | [] => none
  | c :: rest =>
    if isQuote c then
      let mark : Text := if Text.startsWith rest [c, c] then [c, c, c] else [c]
      (content? mark (rest.drop (mark.length - 1))).bind fun r ↦
        (unescape? r.1).map fun t ↦ (t, r.2)
    else none

/-! ### Values -/

/-- The blanks between the parts of a literal in brackets. -/
def isBlankChar (c : CodePoint) : Bool :=
  c == ' ' || c == '\t' || c == '\n' || c == '\r' || c.val == 12

/-- The text behind any blanks. -/
def skip (t : Text) : Text := t.dropWhile isBlankChar

section Parts

variable {α : Type} (part? : Text → Option (α × Text))

/-- At most `bound` parts behind an opening bracket, with commas between them and perhaps one
behind the last, and the closing bracket. -/
def listed? (closing : CodePoint) : (bound : Nat) → Text → Option (List α × Text)
  | 0, _ => none
  | bound + 1, t =>
    match t with
    | [] => none
    | c :: rest =>
      if c = closing then some ([], rest)
      else do
        let (a, rest) ← part? t
        match skip rest with
        | [] => none
        | d :: rest =>
          if d = closing then some ([a], rest)
          else if d = ',' then do
            let (others, rest) ← listed? closing bound (skip rest)
            return (a :: others, rest)
          else none

/-- A name, a colon and what it names. -/
def member? (t : Text) : Option ((Text × α) × Text) := do
  let (name, rest) ← text? t
  match skip rest with
  | [] => none
  | c :: rest =>
    if c = ':' then do
      let (a, rest) ← part? (skip rest)
      return ((name, a), rest)
    else none

/-- Members in braces; of those of one name the last counts, in the place of the first. -/
def members? (t : Text) : Option (Fields α × Text) :=
  match t with
  | [] => none
  | c :: rest =>
    if c = '{' then
      (listed? (member? part?) '}' (rest.length + 1) (skip rest)).map fun r ↦
        (Fields.ofList r.1, r.2)
    else none

/-- Items in brackets. -/
def items? (t : Text) : Option (List α × Text) :=
  match t with
  | [] => none
  | c :: rest =>
    if c = '[' then listed? part? ']' (rest.length + 1) (skip rest)
    else none

end Parts

/-- The words that are values. -/
def words : List (Text × Json) :=
  [("None", .null), ("True", .bool true), ("False", .bool false)]

/-- A word at the start of a text. -/
def word? (t : Text) : Option (Json × Text) :=
  (words.find? fun w ↦ t.startsWith w.1).map fun w ↦ (w.2, t.drop w.1.length)

/-- A value of at most `depth` levels at the start of a text, and what stands behind it. -/
def value? : (depth : Nat) → Text → Option (Json × Text)
  | 0, _ => none
  | depth + 1, t =>
    match t with
    | [] => none
    | c :: _ =>
      if isQuote c then (text? t).map fun r ↦ (.string r.1, r.2)
      else if c = '[' then (items? (value? depth) t).map fun r ↦ (.array r.1, r.2)
      else if c = '{' then (members? (value? depth) t).map fun r ↦ (.object r.1, r.2)
      else word? t

end Literal

end ApiTools
