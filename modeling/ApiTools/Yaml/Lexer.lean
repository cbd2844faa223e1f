import ApiTools.Encoding.Utf8
import ApiTools.Yaml.Scalar
import ApiTools.Yaml.Token

/-!
# Reading tokens

Which tokens a YAML text holds depends on the columns at which they stand. A column deeper than
that of the innermost open block opens a block where an entry or a name stands, and a column
before it closes blocks.

That something is a name is known only at the colon behind it. A place at which a name may have
started is therefore kept open among the tokens, to be filled when the colon comes. It has to come
on the same line and within 1024 characters.
-/

namespace ApiTools

namespace Yaml

/-! ## Tags, anchors and directives -/

/-- The characters of tags that stand for themselves. -/
def isTagChar (c : CodePoint) : Bool :=
  isNameChar c || (Text.ofString ";/?:@&=+$,.!~*'()[]").contains c

/-- Bytes written as a percent sign and two hexadecimal digits each. -/
def percentBytes : Text → Bytes
  | p :: a :: b :: rest =>
    if p = '%' then
      match a.hexValue?, b.hexValue? with
      | some m, some n => UInt8.ofNat (16 * m + n) :: percentBytes rest
      | _, _ => []
    else []
  | _ => []

/-- The text of a tag, and the place behind it. -/
def tagText? : (fuel : Nat) → Cursor → Option (Text × Cursor)
  | 0, _ => none
  | fuel + 1, c =>
    match c.peek with
    | none => some ([], c)
    | some d =>
      if d = '%' then do
        let bytes := percentBytes c.rest
        if bytes = [] then none
        else
          let t ← Encoding.decodeUtf8? false bytes
          let (more, c) ← tagText? fuel (c.skip (3 * bytes.length))
          return (t ++ more, c)
      else if isTagChar d then (tagText? fuel c.advance).map fun (more, c) ↦ (d :: more, c)
      else some ([], c)

/-- The text of a tag, which is not empty. -/
def tagRest? (c : Cursor) : Option (Text × Cursor) := do
  let (t, c) ← tagText? (c.rest.length + 1) c
  if t = [] then none else return (t, c)

/-- A handle: an exclamation mark, alone or with a name and another mark. -/
def tagHandle? (c : Cursor) : Option (Text × Cursor) :=
  let mark : CodePoint := '!'
  if c.peek ≠ some mark then none
  else if c.ahead 1 = some ' ' then some ([mark], c.advance)
  else
    let (name, d) := c.advance.takeWhile isNameChar
    if d.peek = some mark then some (mark :: name ++ [mark], d.advance) else none

/-- The tag at a place. -/
def tag? (c : Cursor) : Option (Token × Cursor) := do
  let mark : CodePoint := '!'
  let (token, c) ←
    if c.ahead 1 = some '<' then do
      let (t, c) ← tagRest? (c.skip 2)
      if c.peek = some '>' then some (Token.tag none t, c.advance) else none
    else if endsWord (c.ahead 1) then some (Token.tag none [mark], c.advance)
    else if mark ∈ c.advance.rest.takeWhile fun d ↦ !endsField (some d) then do
      let (handle, c) ← tagHandle? c
      let (t, c) ← tagRest? c
      some (Token.tag (some handle) t, c)
    else do
      let (t, c) ← tagRest? c.advance
      some (Token.tag (some [mark]) t, c)
  if endsField c.peek then return (token, c) else none

/-- The name of an anchor behind its sign. -/
def anchorName? (c : Cursor) : Option (Text × Cursor) :=
  let (name, d) := c.takeWhile isNameChar
  let mayFollow := endsWord d.peek || d.sees (Text.ofString "?:,]\x7d%@`").contains
  if name ≠ [] ∧ mayFollow then some (name, d) else none

/-- A number in a directive. -/
def directiveNumber? (c : Cursor) : Option (Nat × Cursor) :=
  let (digits, d) := c.takeWhile CodePoint.isAsciiDigit
  if digits = [] then none else some (Text.digitsValue digits, d)

/-- A directive behind its sign. -/
def directive? (c : Cursor) : Option (Directive × Cursor) := do
  let (name, c) := c.takeWhile isNameChar
  if name = [] ∨ !endsField c.peek then none
  else if name = ("YAML" : Text) then
    let (major, c) ← directiveNumber? c.skipSpaces
    if c.peek ≠ some '.' then none
    else
      let (_, c) ← directiveNumber? c.advance
      if endsField c.peek then return (.version major, ← c.finishLine?) else none
  else if name = ("TAG" : Text) then
    let (handle, c) ← tagHandle? c.skipSpaces
    if c.peek ≠ some ' ' then none
    else
      let (expansion, c) ← tagRest? c.skipSpaces
      if endsField c.peek then return (.tag handle expansion, ← c.finishLine?) else none
  else return (.other, ← (c.skipWhile fun d ↦ !isBreak d).finishLine?)

/-! ## The state of reading -/

/-- A token, or a place that is open for the sign of a name. -/
inductive Slot where
  | token (t : Token)
  | open (number : Nat)

/-- A place at which a name may have started. -/
structure PossibleKey where
  slot : Nat
  /-- A text at the column of the innermost block can be nothing but a name. -/
  required : Bool
  line : Nat
  column : Nat
  index : Nat

/-- How far a text has been read. -/
structure Lexer where
  place : Cursor
  /-- What has been read, the last first. -/
  slots : List Slot
  /-- The number of the next open place. -/
  next : Nat
  /-- The columns of the open blocks, the innermost first. -/
  blocks : List Nat
  /-- The possible name inside the innermost brackets. -/
  key : Option PossibleKey
  /-- The same outside of each open bracket, the innermost first. -/
  outer : List (Option PossibleKey)
  /-- May a name start at this place? -/
  keyAllowed : Bool

namespace Lexer

/-- The state at the start of a text. -/
def start (t : Text) : Lexer where
  place := if t.head?.any isByteOrderMark then (Cursor.start t).advance else Cursor.start t
  slots := []
  next := 0
  blocks := []
  key := none
  outer := []
  keyAllowed := true

/-- Inside of brackets? -/
def inFlow (l : Lexer) : Bool := !l.outer.isEmpty

/-- One more token. -/
def push (l : Lexer) (t : Token) : Lexer := { l with slots := .token t :: l.slots }

/-- Is a key on an earlier line, or too far back? -/
def isStale (l : Lexer) (k : PossibleKey) : Bool :=
  k.line ≠ l.place.line || 1024 < l.place.index - k.index

/-- Possible names that can be none any more are given up. -/
def expire? (l : Lexer) : Option Lexer :=
  let lost (k : Option PossibleKey) : Bool := k.any fun k ↦ k.required && l.isStale k
  let kept (k : Option PossibleKey) : Option PossibleKey := k.filter fun k ↦ !l.isStale k
  if lost l.key || l.outer.any lost then none
  else some { l with key := kept l.key, outer := l.outer.map kept }

/-- The possible name inside the innermost brackets is given up. -/
def dropKey? (l : Lexer) : Option Lexer :=
  if l.key.any (·.required) then none else some { l with key := none }

/-- A name may start here, if one is allowed. -/
def markKey? (l : Lexer) : Option Lexer :=
  if l.keyAllowed then do
    let l ← l.dropKey?
    let required := !l.inFlow && l.blocks.head? == some l.place.column
    let key := ⟨l.next, required, l.place.line, l.place.column, l.place.index⟩
    return { l with slots := .open l.next :: l.slots, next := l.next + 1, key := some key }
  else some l

/-- Would an entry at a column open a block? -/
def isDeeper (l : Lexer) (column : Nat) : Bool := l.blocks.head?.all (· < column)

/-- An entry outside of brackets opens a block if it stands deeper than the innermost one. -/
def openBlock? (l : Lexer) (t : Token) : Option Lexer :=
  if l.inFlow then some l
  else if !l.keyAllowed then none
  else if l.isDeeper l.place.column then
    some { l.push t with blocks := l.place.column :: l.blocks }
  else some l

/-- The blocks for whose column the test holds are closed, from the innermost on. -/
def closeBlocks (l : Lexer) (closes : Nat → Bool) : Lexer :=
  if l.inFlow then l
  else
    let closed := (l.blocks.takeWhile closes).map fun _ ↦ Slot.token .blockEnd
    { l with slots := closed ++ l.slots, blocks := l.blocks.dropWhile closes }

/-- Tokens in an open place. -/
def fill (number : Nat) (ts : List Token) : List Slot → List Slot
  | [] => []
  | .open n :: rest =>
    if n = number then (ts.map Slot.token).reverse ++ rest else .open n :: fill number ts rest
  | .token t :: rest => .token t :: fill number ts rest

/-- The place of the next token. Outside of brackets a name may start on each new line. -/
def skipToToken (l : Lexer) : (fuel : Nat) → Lexer
  | 0 => l
  | fuel + 1 =>
    let c := l.place.skipSpaces.skipComment
    match c.lineBreak? with
    | some (_, c) => skipToToken { l with place := c, keyAllowed := l.keyAllowed || !l.inFlow } fuel
    | none => { l with place := c }

/-- The lexer behind a token that ends at a place. -/
def emit (l : Lexer) (t : Token) (place : Cursor) (keyAllowed : Bool) : Lexer :=
  { l.push t with place, keyAllowed }

/-- A line that concerns whole documents: all blocks end before it. -/
def documentLine? (l : Lexer) (t : Token) (place : Cursor) : Option Lexer := do
  let l ← (l.closeBlocks fun _ ↦ true).dropKey?
  return l.emit t place false

/-- An opening bracket. -/
def openFlow? (l : Lexer) (t : Token) : Option Lexer := do
  let l ← l.markKey?
  return { l.emit t l.place.advance true with key := none, outer := l.key :: l.outer }

/-- A closing bracket. One that nothing has opened is refused. -/
def closeFlow? (l : Lexer) (t : Token) : Option Lexer := do
  let l ← l.dropKey?
  match l.outer with
  | [] => none
  | key :: outer => return { l.emit t l.place.advance false with key, outer }

/-- A sign before an entry of a sequence. -/
def blockEntry? (l : Lexer) : Option Lexer := do
  let l ← (← l.openBlock? .blockSequenceStart).dropKey?
  return l.emit .blockEntry l.place.advance true

/-- A sign before a name. -/
def explicitKey? (l : Lexer) : Option Lexer := do
  let l ← (← l.openBlock? .blockMappingStart).dropKey?
  return l.emit .key l.place.advance (!l.inFlow)

/-- A colon. It turns what it stands behind into a name, or else stands for itself. -/
def value? (l : Lexer) : Option Lexer :=
  match l.key with
  | some k =>
    let opens := !l.inFlow && l.isDeeper k.column
    let marks : List Token := if opens then [.blockMappingStart, .key] else [.key]
    let l := { l with
      slots := fill k.slot marks l.slots
      blocks := if opens then k.column :: l.blocks else l.blocks
      key := none }
    some (l.emit .value l.place.advance false)
  | none => do
    let l ← l.openBlock? .blockMappingStart
    return l.emit .value l.place.advance (!l.inFlow)

/-- A token that may be, or start, a name. -/
def nodeToken? (l : Lexer) (found : Option (Token × Cursor)) : Option Lexer := do
  let l ← l.markKey?
  let (t, place) ← found
  return l.emit t place false

/-- A text in quotes. -/
def quoted (l : Lexer) (isDouble : Bool) : Except Fault Lexer :=
  match l.markKey? with
  | none => .error .malformed
  | some l => do
    let (t, place) ← Quoted.body isDouble l.place.rest.length l.place.advance
    return l.emit (.scalar t false) place false

/-- The column at which something inside the innermost block stands at least. -/
def inside (l : Lexer) : Nat := (l.blocks.head?.map (· + 1)).getD 0

/-- A text written as a block. -/
def block? (l : Lexer) (isFolded : Bool) : Option Lexer := do
  let l ← l.dropKey?
  let (t, place) ← Block.body? isFolded (max 1 l.inside) l.place.advance
  return l.emit (.scalar t false) place true

/-- A text without quotes. -/
def plain? (l : Lexer) : Option Lexer := do
  let l ← l.markKey?
  let (t, endsLine, place) :=
    Plain.body l.inFlow l.inside (l.place.rest.length + 1) l.place
  return l.emit (.scalar t true) place endsLine

/-- Can a plain text start with a character, with the other one behind it? -/
def startsPlain (inFlow : Bool) (c : CodePoint) (d : Option CodePoint) : Bool :=
  let isSign := (Text.ofString "-?:,[]\x7b\x7d#&*!|>'\"%@`").contains c
  (!endsWord (some c) && !isSign)
    || (!endsWord d && (c == '-' || (!inFlow && (c == '?' || c == ':'))))

/-- The token at the place reached. -/
def token (l : Lexer) (c : CodePoint) : Except Fault Lexer :=
  let d := l.place.ahead 1
  let orMalformed (found : Option Lexer) : Except Fault Lexer :=
    match found with
    | some l => .ok l
    | none => .error .malformed
  let atMargin := l.place.column == 0
  if c = '%' ∧ atMargin then orMalformed do
    let (d, place) ← directive? l.place.advance
    l.documentLine? (.directive d) place
  else if atMargin ∧ l.place.seesSeparator then
    orMalformed (l.documentLine? (if c = '-' then .documentStart else .documentEnd) (l.place.skip 3))
  else if c = '[' then orMalformed (l.openFlow? .flowSequenceStart)
  else if c = '{' then orMalformed (l.openFlow? .flowMappingStart)
  else if c = ']' then orMalformed (l.closeFlow? .flowSequenceEnd)
  else if c = '}' then orMalformed (l.closeFlow? .flowMappingEnd)
  else if c = ',' then orMalformed do
    let l ← l.dropKey?
    return l.emit .flowEntry l.place.advance true
  else if c = '-' ∧ endsWord d then orMalformed l.blockEntry?
  else if c = '?' ∧ (l.inFlow ∨ endsWord d) then orMalformed l.explicitKey?
  else if c = ':' ∧ (l.inFlow ∨ endsWord d) then orMalformed l.value?
  else if c = '*' then orMalformed (l.nodeToken? do
    let (name, place) ← anchorName? l.place.advance
    return (.aliased name, place))
  else if c = '&' then orMalformed (l.nodeToken? do
    let (name, place) ← anchorName? l.place.advance
    return (.anchor name, place))
  else if c = '!' then orMalformed (l.nodeToken? (tag? l.place))
  else if (c = '|' ∨ c = '>') ∧ !l.inFlow then orMalformed (l.block? (c = '>'))
  else if c = '\'' then l.quoted false
  else if c = '"' then l.quoted true
  else if startsPlain l.inFlow c d then orMalformed l.plain?
  else .error .malformed

/-- The tokens from the state reached to the end of the text. -/
def run : (fuel : Nat) → Lexer → Except Fault (List Token)
  | 0, _ => .error .malformed
  | fuel + 1, l =>
    match (l.skipToToken (l.place.rest.length + 1)).expire? with
    | none => .error .malformed
    | some l =>
      let column := l.place.column
      let l := l.closeBlocks fun block ↦ column < block
      match l.place.peek with
      | none =>
        match (l.closeBlocks fun _ ↦ true).dropKey? with
        | none => .error .malformed
        | some l => .ok (l.slots.reverse.filterMap fun
          | .token t => some t
          | .open _ => none)
      | some c =>
        match l.token c with
        | .ok l => run fuel l
        | .error e => .error e

end Lexer

/-- The tokens of a text. -/
def tokens (t : Text) : Except Fault (List Token) :=
  if t.all isAllowed then Lexer.run (t.length + 1) (Lexer.start t) else .error .malformed

end Yaml

end ApiTools
