import ApiTools.Text.Basic

/-!
# Path templates

A path template is text with fields in braces; a doubled brace stands for one brace. A field has
a name, which a colon or an exclamation mark ends; what follows those is not looked at but for
its braces. A brace that neither starts nor ends a field makes the template malformed.
-/

namespace ApiTools

namespace Acceptance

namespace Template

/-- What is wrong with a template. -/
inductive Flaw where
  /-- A brace opens at the end. -/
  | loneOpening
  /-- A brace closes outside of fields. -/
  | loneClosing
  /-- A brace opens inside of a name. -/
  | openingInName
  /-- A name does not end. -/
  | endInName
  /-- Nothing follows an exclamation mark. -/
  | endInConversion
  /-- More than one character follows an exclamation mark. -/
  | longConversion
  /-- What follows a name does not end. -/
  | endInFormat
deriving DecidableEq

/-- The report of a flaw. -/
def Flaw.message : Flaw → Text
  | .loneOpening => "Single '\x7b' encountered in format string"
  | .loneClosing => "Single '\x7d' encountered in format string"
  | .openingInName => "unexpected '\x7b' in field name"
  | .endInName => "expected '\x7d' before end of string"
  | .endInConversion => "end of string while looking for conversion specifier"
  | .longConversion => "expected ':' after conversion specifier"
  | .endInFormat => "unmatched '\x7b' in format spec"

/-- Where the scan of a template stands. -/
inductive State where
  /-- Outside of fields. -/
  | text
  /-- Behind an opening brace, which may be doubled. -/
  | opened
  /-- Behind a closing brace, which has to be doubled. -/
  | closed
  /-- In a name, whose characters so far are given in reverse. -/
  | name (sofar : Text)
  /-- In brackets inside of a name. -/
  | bracket (sofar : Text)
  /-- Behind an exclamation mark. -/
  | conversion (name : Text)
  /-- Behind the character that follows an exclamation mark. -/
  | converted (name : Text)
  /-- In what follows a colon, with the number of braces open. -/
  | format (name : Text) (depth : Nat)

/-- One character of a name. -/
def nameStep (sofar : Text) (c : CodePoint) : Except Flaw (State × List Text) :=
  if c = '{' then .error .openingInName
  else if c = '[' then .ok (.bracket (c :: sofar), [])
  else if c = '}' then .ok (.text, [sofar.reverse])
  else if c = ':' then .ok (.format sofar.reverse 1, [])
  else if c = '!' then .ok (.conversion sofar.reverse, [])
  else .ok (.name (c :: sofar), [])

/-- One character: the next state and the field that ends here, if one does. -/
def step (state : State) (c : CodePoint) : Except Flaw (State × List Text) :=
  match state with
  | .text => .ok (if c = '{' then .opened else if c = '}' then .closed else .text, [])
  | .opened => if c = '{' then .ok (.text, []) else nameStep [] c
  | .closed => if c = '}' then .ok (.text, []) else .error .loneClosing
  | .name sofar => nameStep sofar c
  | .bracket sofar =>
    if c = ']' then .ok (.name (c :: sofar), []) else .ok (.bracket (c :: sofar), [])
  | .conversion name => .ok (.converted name, [])
  | .converted name =>
    if c = '}' then .ok (.text, [name])
    else if c = ':' then .ok (.format name 1, [])
    else .error .longConversion
  | .format name depth =>
    if c = '{' then .ok (.format name (depth + 1), [])
    else if c = '}' then
      if depth ≤ 1 then .ok (.text, [name]) else .ok (.format name (depth - 1), [])
    else .ok (.format name depth, [])

/-- What is wrong with a template that ends in a state. -/
def flawAtEnd? : State → Option Flaw
  | .text => none
  | .opened => some .loneOpening
  | .closed => some .loneClosing
  | .name _ | .bracket _ => some .endInName
  | .conversion _ => some .endInConversion
  | .converted _ | .format _ _ => some .endInFormat

/-- The names of the fields of a template from a state on. -/
def namesFrom : State → Text → Except Flaw (List Text)
  | state, [] =>
    match flawAtEnd? state with
    | some flaw => .error flaw
    | none => .ok []
  | state, c :: rest => do
    let (next, ended) ← step state c
    return ended ++ (← namesFrom next rest)

/-- The names of the fields of a template; a field without a name does not count. -/
def names (template : Text) : Except Flaw (List Text) := do
  return (← namesFrom .text template).filter (· ≠ [])

end Template

end Acceptance

end ApiTools
