import ApiTools.Yaml.Cursor

/-!
# Texts inside a YAML text

Texts are written plain, between quotes or as an indented block. In each way a line break is
folded: a single one is a space, and of several all but the first are kept.
-/

namespace ApiTools

namespace Yaml

/-- What a line break and the empty lines behind it stand for. -/
def folded (lineBreak breaks : Text) : Text :=
  if lineBreak ≠ ("\n" : Text) then lineBreak ++ breaks
  else if breaks = [] then [' ']
  else breaks

namespace Quoted

/-- The characters that an escape of one letter stands for. -/
def shortEscape? (c : CodePoint) : Option CodePoint :=
  if c = '0' then CodePoint.ofNat? 0
  else if c = 'a' then CodePoint.ofNat? 7
  else if c = 'b' then CodePoint.ofNat? 8
  else if c = 't' ∨ c = '\t' then some '\t'
  else if c = 'n' then some '\n'
  else if c = 'v' then CodePoint.ofNat? 11
  else if c = 'f' then CodePoint.ofNat? 12
  else if c = 'r' then some '\r'
  else if c = 'e' then CodePoint.ofNat? 27
  else if c = ' ' ∨ c = '"' ∨ c = '\\' ∨ c = '/' then some c
  else if c = 'N' then CodePoint.ofNat? 0x85
  else if c = '_' then CodePoint.ofNat? 0xA0
  else if c = 'L' then CodePoint.ofNat? 0x2028
  else if c = 'P' then CodePoint.ofNat? 0x2029
  else none

/-- The number of digits behind the letter of a numeric escape. -/
def escapeWidth? (c : CodePoint) : Option Nat :=
  if c = 'x' then some 2 else if c = 'u' then some 4 else if c = 'U' then some 8 else none

/-- The number that hexadecimal digits stand for. -/
def hexNumber? (digits : Text) : Option Nat :=
  digits.foldlM (fun n c ↦ c.hexValue?.map (16 * n + ·)) 0

/-- The line breaks at the start of lines that hold nothing else, and the place behind them and
the blanks that follow. A line that parts documents is refused. -/
def breaks? : (fuel : Nat) → Cursor → Option (Text × Cursor)
  | 0, _ => none
  | fuel + 1, c =>
    if c.seesSeparator then none
    else
      let c := c.skipWhile isSpaceOrTab
      match c.lineBreak? with
      | some (b, c) => (breaks? fuel c).map fun (bs, c) ↦ (b ++ bs, c)
      | none => some ([], c)

/-- The character or line continuation behind a backslash. -/
def escape (fuel : Nat) (c : Cursor) : Except Fault (Text × Cursor) :=
  match c.peek with
  | none => .error .malformed
  | some d =>
    match shortEscape? d, escapeWidth? d with
    | some e, _ => .ok ([e], c.advance)
    | none, some width =>
      let digits := c.advance.rest.take width
      match hexNumber? digits with
      | some n =>
        if digits.length = width then
          match CodePoint.ofNat? n with
          | some e => .ok ([e], c.advance.skip width)
          | none =>
            .error (if n < 0x80000000 then .badValue "chr() arg not in range(0x110000)" else .numberRange)
        else .error .malformed
      | none => .error .malformed
    | none, none =>
      match c.lineBreak? with
      | some (_, c) =>
        match breaks? fuel c with
        | some found => .ok found
        | none => .error .malformed
      | none => .error .malformed

/-- Blanks inside quotes, which stand for themselves unless they end a line. -/
def blanks (fuel : Nat) (c : Cursor) : Except Fault (Text × Cursor) :=
  let (spaces, c) := c.takeWhile isSpaceOrTab
  match c.lineBreak? with
  | some (b, c) =>
    match breaks? fuel c with
    | some (bs, c) => .ok (folded b bs, c)
    | none => .error .malformed
  | none => .ok (spaces, c)

/-- The text up to the closing quote and the place behind it. Inside single quotes only the quote
itself is written in another way, twice; inside double quotes a backslash starts an escape. -/
def body (isDouble : Bool) : (fuel : Nat) → Cursor → Except Fault (Text × Cursor)
  | 0, _ => .error .malformed
  | fuel + 1, c =>
    let followedBy (found : Text × Cursor) : Except Fault (Text × Cursor) := do
      let (t, c) ← body isDouble fuel found.2
      return (found.1 ++ t, c)
    match c.peek with
    | none => .error .malformed
    | some d =>
      if d = '"' ∧ isDouble then .ok ([], c.advance)
      else if d = '\'' ∧ !isDouble then
        if c.ahead 1 = some '\'' then followedBy (['\''], c.skip 2) else .ok ([], c.advance)
      else if d = '\\' ∧ isDouble then
        match escape fuel c.advance with
        | .ok found => followedBy found
        | .error e => .error e
      else if isSpaceOrTab d ∨ isBreak d then
        match blanks fuel c with
        | .ok found => followedBy found
        | .error e => .error e
      else followedBy ([d], c.advance)

end Quoted

namespace Plain

/-- Does a plain text end at this place? -/
def ends (inFlow : Bool) (c d : Option CodePoint) : Bool :=
  let opens (e : CodePoint) : Bool := ([',', '[', ']', '{', '}'] : List Char).any fun f ↦ e == f
  match c with
  | none => true
  | some e =>
    endsWord c || (e == ':' && (endsWord d || (inFlow && d.any opens)))
      || (inFlow && (e == '?' || opens e))

/-- The part of a plain text up to a blank or its end. -/
def word (inFlow : Bool) : Text → Text
  | [] => []
  | c :: rest => if ends inFlow (some c) rest.head? then [] else c :: word inFlow rest

/-- What lies between two parts of a plain text. -/
structure Gap where
  text : Text
  endsLine : Bool
  place : Cursor

/-- The line breaks at the start of lines that hold nothing else; none if a line that parts
documents comes next. -/
def breaks? : (fuel : Nat) → Cursor → Option Text × Cursor
  | 0, c => (none, c)
  | fuel + 1, c =>
    if c.seesSeparator then (none, c)
    else
      let c := c.skipSpaces
      match c.lineBreak? with
      | some (b, c) =>
        let (bs, c) := breaks? fuel c
        (bs.map (b ++ ·), c)
      | none => (some [], c)

/-- The blanks behind a part of a plain text; an empty text ends it. -/
def gap (fuel : Nat) (c : Cursor) : Gap :=
  let (spaces, c) := c.takeWhile fun d ↦ d.val == 32
  match c.lineBreak? with
  | some (b, c) =>
    let (bs, c) := breaks? fuel c
    ⟨(bs.map (folded b)).getD [], true, c⟩
  | none => ⟨spaces, false, c⟩

/-- A plain text from this place on, behind what has been read of it. Outside of brackets it
goes on only on lines that are indented at least as `indent` says. The truth value says whether
it ended behind a line break. -/
def body (inFlow : Bool) (indent : Nat) : (fuel : Nat) → Cursor → Text × Bool × Cursor
  | 0, c => ([], false, c)
  | fuel + 1, c =>
    let t := word inFlow c.rest
    let g := gap fuel (c.skip t.length)
    let next := g.place
    if g.text = [] ∨ next.peek = some '#' ∨ (!inFlow && decide (next.column < indent)) = true
        ∨ word inFlow next.rest = [] then
      (t, g.endsLine, next)
    else
      let (more, endsLine, c) := body inFlow indent fuel next
      (t ++ g.text ++ more, endsLine, c)

end Plain

namespace Block

/-- What happens to the line breaks at the end of a block. -/
inductive Chomping where
  | strip
  | clip
  | keep
deriving DecidableEq

/-- The head of a block: how it ends and, if it says so, its indentation. -/
structure Header where
  chomping : Chomping
  increment : Option Nat

/-- A sign of how a block ends. -/
def chomping? (c : Option CodePoint) : Option Chomping :=
  if c = some '+' then some .keep else if c = some '-' then some .strip else none

/-- A digit that gives the indentation of a block. -/
def increment? (c : Option CodePoint) : Option Nat :=
  match c with
  | some d => if d.isAsciiDigit then some d.digitValue else none
  | none => none

/-- The head of a block in either order, and the place behind its line. -/
def header? (c : Cursor) : Option (Header × Cursor) := do
  let (header, c) :=
    match chomping? c.peek, increment? c.peek with
    | some s, _ =>
      match increment? (c.ahead 1) with
      | some n => (Header.mk s (some n), c.skip 2)
      | none => (⟨s, none⟩, c.advance)
    | none, some n =>
      match chomping? (c.ahead 1) with
      | some s => (⟨s, some n⟩, c.skip 2)
      | none => (⟨.clip, some n⟩, c.advance)
    | none, none => (⟨.clip, none⟩, c)
  if header.increment = some 0 ∨ !endsField c.peek then none
  else return (header, ← c.finishLine?)

/-- The place behind at most as many spaces as lead to a column. -/
def indented (column : Nat) (c : Cursor) : Cursor :=
  let spaces := (c.rest.takeWhile fun d ↦ d.val == 32).length
  c.skip (min spaces (column - c.column))

/-- The empty lines that come next, each with at most the given indentation. -/
def breaks (column : Nat) : (fuel : Nat) → Cursor → Text × Cursor
  | 0, c => ([], c)
  | fuel + 1, c =>
    let c := indented column c
    match c.lineBreak? with
    | some (b, c) =>
      let (bs, c) := breaks column fuel c
      (b ++ bs, c)
    | none => ([], c)

/-- The empty lines before the first line of a block, and the greatest column that their spaces or
those of the first line reach. -/
def leading (reached : Nat) : (fuel : Nat) → Cursor → Text × Nat × Cursor
  | 0, c => ([], reached, c)
  | fuel + 1, c =>
    let c := c.skipSpaces
    let reached := max reached c.column
    match c.lineBreak? with
    | some (b, c) =>
      let (bs, reached, c) := leading reached fuel c
      (b ++ bs, reached, c)
    | none => ([], reached, c)

/-- Is there a line of the block at this place? -/
def continues (column : Nat) (c : Cursor) : Bool := c.column == column && c.peek.isSome

/-- The lines of a block behind empty lines. With the text come the line break of its last line
and the empty lines behind it. -/
def lines (isFolded : Bool) (column : Nat) :
    (fuel : Nat) → Text → Cursor → Text × Text × Text × Cursor
  | 0, empty, c => ([], [], empty, c)
  | fuel + 1, empty, c =>
    if continues column c then
      let startsWithText := !c.sees isSpaceOrTab
      let (t, c) := c.takeWhile fun d ↦ !isBreak d
      let (lineBreak, c) := c.lineBreak?.getD ([], c)
      let (next, c) := breaks column fuel c
      if continues column c then
        let joined : Text :=
          if isFolded && lineBreak == ("\n" : Text) && startsWithText && !c.sees isSpaceOrTab then
            (if next = [] then [' '] else [])
          else lineBreak
        let (more, last, behind, c) := lines isFolded column fuel next c
        (empty ++ t ++ joined ++ more, last, behind, c)
      else (empty ++ t, lineBreak, next, c)
    else ([], [], empty, c)

/-- A block behind its sign, and the place behind it. It is indented deeper than what surrounds
it: by as much as its head says, or else as its first line is. -/
def body? (isFolded : Bool) (least : Nat) (c : Cursor) : Option (Text × Cursor) := do
  let fuel := c.rest.length + 1
  let (header, c) ← header? c
  let (column, empty, c) :=
    match header.increment with
    | some n =>
      let column := least + n - 1
      let (empty, c) := breaks column fuel c
      (column, empty, c)
    | none =>
      let (empty, reached, c) := leading 0 fuel c
      (max least reached, empty, c)
  let (t, last, behind, c) := lines isFolded column fuel empty c
  let ending : Text :=
    match header.chomping with
    | .strip => []
    | .clip => last
    | .keep => last ++ behind
  return (t ++ ending, c)

end Block

end Yaml

end ApiTools
