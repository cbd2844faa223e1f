import ApiTools.Encoding.Detect
import ApiTools.Json.Value
import ApiTools.Text.Basic

/-!
# Reading JSON

The reader takes a text to the value it denotes, or refuses it. Beyond the standard it knows
`NaN`, `Infinity` and `-Infinity`; a name that occurs twice keeps its first place and its last
value; an escaped half of a surrogate pair is read as it stands. Whole numbers may be refused
from a number of digits on.

The functions on nested values carry a bound on the number of steps; every step consumes a
code point, so the length of the text is enough and `parse?` shows no bound.
-/

namespace ApiTools

namespace Json

/-- The four blanks of JSON. -/
def isBlankChar (c : CodePoint) : Bool :=
  c == ' ' || c == '\t' || c == '\n' || c == '\r'

/-- The text behind any blanks. -/
def skip (t : Text) : Text := t.dropWhile isBlankChar

/-- The number of four hexadecimal digits. -/
def hex4? (a b c d : CodePoint) : Option CodePoint := do
  CodePoint.ofNat? ((((← a.hexValue?) * 16 + (← b.hexValue?)) * 16 + (← c.hexValue?)) * 16
    + (← d.hexValue?))

/-- What a backslash and one other character stand for. -/
def shortEscape? (c : CodePoint) : Option CodePoint :=
  if c = '"' ∨ c = '\\' ∨ c = '/' then some c
  else if c = 'b' then some ⟨8, by decide⟩
  else if c = 'f' then some ⟨12, by decide⟩
  else if c = 'n' then some '\n'
  else if c = 'r' then some '\r'
  else if c = 't' then some '\t'
  else none

/-- A character of a string as it is written: by number, or in any other way. -/
inductive Piece where
  | plain (c : CodePoint)
  | numeric (c : CodePoint)

/-- The pieces of a string whose opening quote has been read, and the text behind its closing
quote. Control characters are refused. -/
def pieces? : Text → Option (List Piece × Text)
  | [] => none
  | c :: rest =>
    if c = '"' then some ([], rest)
    else if c = '\\' then
      match rest with
      | [] => none
      | e :: rest =>
        if e = 'u' then
          match rest with
          | h₁ :: h₂ :: h₃ :: h₄ :: rest => do
            let unit ← hex4? h₁ h₂ h₃ h₄
            let (pieces, behind) ← pieces? rest
            return (.numeric unit :: pieces, behind)
          | _ => none
        else do
          let escaped ← shortEscape? e
          let (pieces, behind) ← pieces? rest
          return (.plain escaped :: pieces, behind)
    else if c.val < 0x20 then none
    else do
      let (pieces, behind) ← pieces? rest
      return (.plain c :: pieces, behind)

/-- The text of some pieces: a surrogate pair is joined when both halves are written by
number. -/
def joinPieces : List Piece → Text
  | [] => []
  | .plain c :: rest => c :: joinPieces rest
  | [.numeric c] => [c]
  | .numeric c :: .plain d :: rest => c :: d :: joinPieces rest
  | .numeric c :: .numeric d :: rest =>
    if c.isHighSurrogate && d.isLowSurrogate then
      CodePoint.ofSurrogatePair c d :: joinPieces rest
    else c :: joinPieces (.numeric d :: rest)

/-- The content of a string whose opening quote has been read, and the text behind its closing
quote. -/
def stringBody? (t : Text) : Option (Text × Text) :=
  (pieces? t).map fun (pieces, behind) ↦ (joinPieces pieces, behind)

/-- The digits at the start of a text and what follows them. -/
def digits (t : Text) : Text × Text := t.span CodePoint.isAsciiDigit

/-- A fraction at the start of a text: a point and at least one digit. -/
def fraction (t : Text) : Text × Text :=
  match t with
  | c :: rest =>
    if c = '.' ∧ (digits rest).1 ≠ [] then digits rest else ([], t)
  | [] => ([], [])

/-- An exponent at the start of a text: its letter, perhaps a sign, and at least one digit. -/
def exponent? (t : Text) : Option (Int × Text) :=
  match t with
  | c :: rest =>
    if c = 'e' ∨ c = 'E' then
      let (negative, rest) :=
        match rest with
        | s :: behind => if s = '-' then (true, behind) else if s = '+' then (false, behind)
                         else (false, rest)
        | [] => (false, rest)
      let (ds, behind) := digits rest
      if ds = [] then none
      else some (if negative then -(Text.digitsValue ds : Int) else Text.digitsValue ds, behind)
    else none
  | [] => none

/-- The whole part of a number: a single zero, or digits that start with another one. -/
def wholePart? (t : Text) : Option (Text × Text) :=
  match t with
  | c :: rest =>
    if c = '0' then some ([c], rest) else if c.isAsciiDigit then some (digits t) else none
  | [] => none

/-- A number without its sign at the start of a text, a whole one having at most so many digits. -/
def unsigned? (limit : Option Nat) (negative : Bool) (t : Text) : Option (Json × Text) := do
  let (whole, rest) ← wholePart? t
  let (part, rest) := fraction rest
  match exponent? rest with
  | some (power, rest) =>
    return (.float (Double.ofDecimal negative (Text.digitsValue (whole ++ part))
      (power - part.length)), rest)
  | none =>
    if part = [] then
      let n := Text.digitsValue whole
      if Text.isWithin limit whole then some (.int (if negative then -(n : Int) else n), rest)
      else none
    else
      return (.float (Double.ofDecimal negative (Text.digitsValue (whole ++ part))
        (-(part.length : Int))), rest)

/-- The words that are values. -/
def words : List (Text × Json) :=
  [("null", .null), ("true", .bool true), ("false", .bool false), ("NaN", .float .nan),
    ("Infinity", .float (.infinite false)), ("-Infinity", .float (.infinite true))]

/-- A word or a number at the start of a text. -/
def scalar? (limit : Option Nat) (t : Text) : Option (Json × Text) :=
  match words.find? fun w ↦ t.startsWith w.1 with
  | some (word, v) => some (v, t.drop word.length)
  | none =>
    match t with
    | c :: rest => if c = '-' then unsigned? limit true rest else unsigned? limit false t
    | [] => none

mutual

/-- A value at the start of a text. -/
def value? (limit : Option Nat) : (fuel : Nat) → Text → Option (Json × Text)
  | 0, _ => none
  | fuel + 1, t =>
    match t with
    | [] => none
    | c :: rest =>
      if c = '"' then (stringBody? rest).map fun (s, behind) ↦ (.string s, behind)
      else if c = '[' then
        match skip rest with
        | [] => none
        | d :: behind =>
          if d = ']' then some (.array [], behind)
          else (items? limit fuel (d :: behind)).map fun (vs, behind) ↦ (.array vs, behind)
      else if c = '{' then
        match skip rest with
        | [] => none
        | d :: behind =>
          if d = '}' then some (.object [], behind)
          else
            (members? limit fuel (d :: behind)).map fun (fs, behind) ↦
              (.object (Fields.ofList fs), behind)
      else scalar? limit t

/-- The items of an array and its closing bracket. -/
def items? (limit : Option Nat) : (fuel : Nat) → Text → Option (List Json × Text)
  | 0, _ => none
  | fuel + 1, t => do
    let (v, rest) ← value? limit fuel t
    match skip rest with
    | [] => none
    | c :: rest =>
      if c = ']' then some ([v], rest)
      else if c = ',' then
        let (vs, rest) ← items? limit fuel (skip rest)
        return (v :: vs, rest)
      else none

/-- The members of an object and its closing brace. -/
def members? (limit : Option Nat) : (fuel : Nat) → Text → Option (Fields Json × Text)
  | 0, _ => none
  | fuel + 1, t => do
    match t with
    | [] => none
    | c :: rest =>
      if c = '"' then
        let (name, rest) ← stringBody? rest
        match skip rest with
        | [] => none
        | c :: rest =>
          if c = ':' then
            let (v, rest) ← value? limit fuel (skip rest)
            match skip rest with
            | [] => none
            | c :: rest =>
              if c = '}' then some ([(name, v)], rest)
              else if c = ',' then
                let (fs, rest) ← members? limit fuel (skip rest)
                return ((name, v) :: fs, rest)
              else none
          else none
      else none

end

/-- The value that a text denotes, with whole numbers of at most so many digits. -/
def parse? (t : Text) (limit : Option Nat := none) : Option Json := do
  let (v, rest) ← value? limit (t.length + 1) (skip t)
  if skip rest = [] then some v else none

/-- The value that a document denotes. -/
def decode? (bytes : Bytes) : Option Json := do
  parse? (← Encoding.decode? bytes) (some Text.digitLimit)

end Json

end ApiTools
