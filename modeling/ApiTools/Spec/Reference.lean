import ApiTools.Json.Value
import ApiTools.Text.Blank
import ApiTools.Validation.Issue

/-!
# Local references

A node with a `$ref` that points into the document itself is replaced by what the pointer points
at, itself with its references replaced. A reference met again while it is being followed stays
in place as a bare pointer. References to other documents are left alone.

All replacements of a tree are worked out before the first is made; they are then made from the
outside in, so that a reference beside a `$ref` ends up inside of what replaces its node.
-/

namespace ApiTools

/-- Why references cannot be followed. -/
inductive ReferenceError where
  /-- A pointer points at nothing, or is no text. -/
  | dangling
  /-- A reference stands where none can: it is empty and no text, or it stands inside of
  something that was replaced by a leaf. -/
  | misplaced
  /-- A reference names a scheme that is not known. -/
  | unknownScheme
deriving DecidableEq

namespace Spec

/-- Where something is in a tree. -/
abbrev Path := List Step

/-! ## Finding references -/

mutual

/-- The references inside of a value that is at a path, each with the path of its node. -/
def references (path : Path) : Json → List (Path × Json)
  | .array items => itemReferences path 0 items
  | .object fields => fieldReferences path fields
  | _ => []

/-- The references inside of the items of a list. -/
def itemReferences (path : Path) : Nat → List Json → List (Path × Json)
  | _, [] => []
  | i, v :: rest => references (path ++ [.index i]) v ++ itemReferences path (i + 1) rest

/-- The references of a node with some fields, and those inside of the fields. -/
def fieldReferences (path : Path) : List (Text × Json) → List (Path × Json)
  | [] => []
  | (name, v) :: rest =>
    (if name = "$ref" then [(path, v)] else []) ++ references (path ++ [.field name]) v
      ++ fieldReferences path rest

end

/-! ## Pointers -/

/-- What a reference is to. -/
inductive Target where
  /-- A place in the document itself, by its pointer. -/
  | internal (pointer : Text)
  | external
deriving DecidableEq

/-- The characters that a scheme can hold. -/
def isSchemeChar (c : CodePoint) : Bool :=
  c.isAsciiLetter || c.isAsciiDigit || c == '+' || c == '-' || c == '.'

/-- The scheme of a URL in lower case, empty if it names none, and the rest. -/
def splitScheme (url : Text) : Text × Text :=
  match url.cut ':' with
  | (scheme, some rest) =>
    match scheme with
    | c :: _ =>
      if c.isAsciiLetter && scheme.all isSchemeChar then (scheme.toAsciiLower, rest)
      else ([], url)
    | [] => ([], url)
  | _ => ([], url)

/-- A URL without the controls and blanks at its start and without tabs and line ends. -/
def cleanUrl (url : Text) : Text :=
  (url.dropWhile fun c ↦ decide (c.val ≤ 0x20)).filter fun c ↦
    c ≠ CodePoint.ofChar '\t' ∧ c ≠ CodePoint.ofChar '\n' ∧ c ≠ CodePoint.ofChar '\r'

/-- The path of a URL whose scheme and fragment have been removed. -/
def pathOf (scheme rest : Text) : Text :=
  let withoutHost : Text :=
    match rest with
    | c :: d :: behind =>
      if c = '/' ∧ d = '/' then
        behind.dropWhile fun c ↦ !(c == CodePoint.ofChar '/' || c == CodePoint.ofChar '?')
      else rest
    | _ => rest
  let path := (withoutHost.cut '?').1
  if scheme = [] then
    -- Parameters behind the last segment are no part of the path.
    let segments := path.splitOn '/'
    Text.join "/" (segments.dropLast ++ segments.getLast?.toList.map fun s ↦ (s.cut ';').1)
  else path

/-- What a reference is to. A URL without a path points into the document itself. -/
def target (url : Text) : Except ReferenceError Target :=
  let (scheme, rest) := splitScheme (cleanUrl url)
  let (body, fragment) := rest.cut '#'
  if scheme = [] ∨ scheme = "file" then
    if pathOf scheme body = [] then .ok (.internal (fragment.getD [])) else .ok .external
  else if scheme.startsWith "http" ∨ scheme = "python" then .ok .external
  else .error .unknownScheme

/-- A segment of a pointer with its escapes undone. -/
def unescapeSegment (segment : Text) : Text := (segment.replace "~1" "/").replace "~0" "~"

/-- The segments of a pointer, without empty ones at its start. -/
def segments (pointer : Text) : List Text :=
  ((pointer.splitOn '/').dropWhile (· == [])).map unescapeSegment

/-- An index written as a whole number with a sign, blanks around it and single underscores
between its digits. -/
def index? (segment : Text) : Option Nat :=
  let body := segment.trim CodePoint.isBlank
  let (negative, digits) : Bool × Text :=
    match body with
    | c :: rest => if c = '-' then (true, rest) else if c = '+' then (false, rest) else (false, body)
    | [] => (false, [])
  let parts : List Text := digits.splitOn '_'
  if parts.all fun p ↦ p ≠ [] ∧ p.all CodePoint.isAsciiDigit then
    let n := Text.digitsValue parts.flatten
    if negative ∧ n ≠ 0 then none else some n
  else none

/-- What a pointer points at; a blank value is as good as null. -/
def lookUp : (v : Json) → (segments : List Text) → Option Json
  | v, [] => some (if v.isBlank then .null else v)
  | .object fields, name :: rest => do lookUp (← Fields.get? fields name) rest
  | .array items, segment :: rest => do lookUp (← items[(← index? segment)]?) rest
  | .string t, segment :: rest => do lookUp (.string [← t[(← index? segment)]?]) rest
  | _, _ :: _ => none

/-! ## Replacing -/

/-- What is put where a path leads and nothing is. -/
def emptyFor : Path → Json
  | .index _ :: _ => .array []
  | .field _ :: _ => .object []
  | [] => .null

/-- The index that a step into a list stands for. -/
def listIndex? : Step → Option Nat
  | .index i => some i
  | .field name => index? name

/-- The name that a step into an object stands for. -/
def fieldName? : Step → Option Text
  | .field name => some name
  | .index _ => none

/-- A list that is long enough to hold an item at an index. -/
def padded (items : List Json) (i : Nat) (filler : Json) : List Json :=
  if i < items.length then items
  else items ++ List.replicate (i - items.length) .null ++ [filler]

/-- A tree with a value put at a path; what is missing on the way is made. -/
def put (value : Json) : Path → Json → Except ReferenceError Json
  | [], _ => .ok value
  | step :: rest, .object fields =>
    match fieldName? step with
    | some name => do
      let old := (Fields.get? fields name).getD (emptyFor rest)
      return .object (Fields.set fields name (← put value rest old))
    | none => .error .misplaced
  | step :: rest, .array items =>
    match listIndex? step with
    | some i => do
      let items := padded items i (emptyFor rest)
      return .array (items.set i (← put value rest ((items[i]?).getD .null)))
    | none => .error .misplaced
  | _ :: _, _ => .error .misplaced

/-- Replacements made one after the other. -/
def putAll : List (Path × Json) → Json → Except ReferenceError Json
  | [], v => .ok v
  | (path, value) :: rest, v => do putAll rest (← put value path v)

/-- Replacements from the outside in. -/
def outermostFirst (changes : List (Path × Json)) : List (Path × Json) :=
  changes.mergeSort fun a b ↦ a.1.length ≤ b.1.length

/-- A bare pointer. -/
def bareReference (pointer : Text) : Json := .object [("$ref", .string ("#" ++ pointer))]

/-- The target of a reference as it stands in a document. -/
def targetOf : Json → Except ReferenceError Target
  | .string url => target url
  | v => if v.isBlank then .error .misplaced else .error .dangling

/-- The replacements for some references: `inline` gives the value behind a pointer. -/
def changes (inline : List Text → Except ReferenceError Json) (chain : List (List Text)) :
    List (Path × Json) → Except ReferenceError (List (Path × Json))
  | [] => .ok []
  | (path, reference) :: rest => do
    match ← targetOf reference with
    | .external => changes inline chain rest
    | .internal pointer =>
      let value ←
        if segments pointer ∈ chain then .ok (bareReference pointer)
        else inline (segments pointer)
      return (path, value) :: (← changes inline chain rest)

/-- A value with its references replaced; `chain` are the pointers being followed. -/
def inlineIn (document : Json) : (fuel : Nat) → (chain : List (List Text)) → Json →
    Except ReferenceError Json
  | 0, _, v => .ok v
  | fuel + 1, chain, v => do
    let follow (pointer : List Text) : Except ReferenceError Json :=
      match lookUp document pointer with
      | some found => inlineIn document fuel (pointer :: chain) found
      | none => .error .dangling
    putAll (outermostFirst (← changes follow chain (references [] v))) v

/-- A document with its local references replaced. Every pointer on a chain of references is
another one of the document, so their number bounds the chain. -/
def inlineReferences (document : Json) : Except ReferenceError Json :=
  inlineIn document ((references [] document).length + 1) [] document

end Spec

end ApiTools
