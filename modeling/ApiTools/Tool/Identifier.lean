import ApiTools.Text.Blank
import ApiTools.Text.Case
import ApiTools.Text.Numeral
import ApiTools.Tool.Basic

/-!
# Identifiers

How the identifier of a tool follows from an operation's method and path, how names are made
fit for schemas, and how a name is told apart from names that are taken.
-/

namespace ApiTools

namespace Identifier

/-- Does a code point end a word? In ASCII all but letters, digits and underscores do, beyond
it only blanks. -/
def isSeparator (c : CodePoint) : Bool :=
  if c.isAscii then !c.isAsciiWord
  else if c.isLetter || c.isDigit then false
  else c.isBlank

/-- Words in upper case at their start; `starting` says whether a word starts here. -/
def titleFrom : (starting : Bool) → Text → Text
  | _, [] => []
  | starting, c :: rest => (if starting then c.toUpper else [c]) ++ titleFrom (isSeparator c) rest

/-- Every code point that starts a word in upper case. -/
def titleCase (t : Text) : Text := titleFrom true t

/-- A code point of a path inside an identifier: braces vanish, slashes and hyphens become
underscores. -/
def skeletonChar (c : CodePoint) : Text :=
  if c = '{' ∨ c = '}' then [] else if c = '/' ∨ c = '-' then ['_'] else [c]

/-- A path without its first separator, with underscores for the others. -/
def skeleton (path : Text) : Text :=
  match path.flatMap skeletonChar with
  | c :: rest => if c = '_' then rest else c :: rest
  | [] => []

/-- The identifier of the tool for an operation. -/
def ofOperation (path method : Text) : Text := method.toLower ++ titleCase (skeleton path)

/-- A name with everything replaced by underscores but letters, decimal digits and underscores. -/
def sanitize (name : Text) : Text :=
  name.map fun (c : CodePoint) ↦ if c.isLetter || c.isDecimal || c == '_' then c else '_'

/-- A name with everything but letters and numerals replaced by underscores. -/
def sanitizeStrictly (name : Text) : Text :=
  name.map fun c ↦ if c.isAlphanumeric then c else '_'

/-- A name that neither is empty nor starts with an underscore or a digit. -/
def fieldName (name : Text) : Text :=
  match name with
  | [] => "param_"
  | c :: _ =>
    if c = '_' ∨ c.isDigit then "param_" ++ name.dropWhile (fun (c : CodePoint) ↦ c == '_') else name

/-- A name with a number behind it. -/
def suffixed (name : Text) (k : Nat) : Text := name ++ "_" ++ Text.ofNat k

/-- The least number from `k` on whose suffixed name is not taken, among as many as the bound
allows. -/
def firstFree (name : Text) (taken : List Text) : (bound k : Nat) → Nat
  | 0, k => k
  | bound + 1, k =>
    if suffixed name k ∈ taken then firstFree name taken bound (k + 1) else k

/-- The name itself if it is free, else with the least suffix from 2 on that makes it free. One
of the first `taken.length + 1` suffixes is. -/
def unique (name : Text) (taken : List Text) : Text :=
  if name ∈ taken then suffixed name (firstFree name taken taken.length 2) else name

end Identifier

end ApiTools
