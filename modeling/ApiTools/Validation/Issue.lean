import ApiTools.Text.Basic

/-!
# Issues

What is wrong with a value that does not fit where it stands: the path to the offending part and
the kind of offence. All issues of a value are collected.
-/

namespace ApiTools

/-- One step into a value. -/
inductive Step where
  | field (name : Text)
  | index (i : Nat)
deriving DecidableEq

namespace Issue

/-- The kinds of offence. -/
inductive Kind where
  | missing
  | stringType
  | intType
  | intParsing
  | intParsingSize
  | intFromFloat
  | finiteNumber
  | floatType
  | floatParsing
  | boolType
  | boolParsing
  | literal
  | listType
  | dictType
  | modelType
  | extraForbidden
  /-- A surrogate stands in a name. -/
  | stringUnicode
  /-- What is called behind a reading is no function. It is reported with no code. -/
  | notCallable
deriving DecidableEq

/-- The code of a kind in reports. -/
def Kind.code : Kind → Text
  | .missing => "missing"
  | .stringType => "string_type"
  | .intType => "int_type"
  | .intParsing => "int_parsing"
  | .intParsingSize => "int_parsing_size"
  | .intFromFloat => "int_from_float"
  | .finiteNumber => "finite_number"
  | .floatType => "float_type"
  | .floatParsing => "float_parsing"
  | .boolType => "bool_type"
  | .boolParsing => "bool_parsing"
  | .literal => "literal_error"
  | .listType => "list_type"
  | .dictType => "dict_type"
  | .modelType => "model_type"
  | .extraForbidden => "extra_forbidden"
  | .stringUnicode => "string_unicode"
  | .notCallable => []

end Issue

/-- An offence and where it is. -/
structure Issue where
  path : List Step
  kind : Issue.Kind
deriving DecidableEq

namespace Issue

/-- An issue seen from one step further out. -/
def under (step : Step) (issue : Issue) : Issue := { issue with path := step :: issue.path }

end Issue

/-- A value that was read, or everything that is wrong with it. -/
abbrev Checked (α : Type) := Except (List Issue) α

namespace Checked

/-- A refusal with one issue at the value itself. -/
def refuse {α : Type} (kind : Issue.Kind) : Checked α := .error [⟨[], kind⟩]

/-- A part of a value: its issues lie one step further in. -/
def under {α : Type} (step : Step) : Checked α → Checked α
  | .ok a => .ok a
  | .error issues => .error (issues.map (Issue.under step))

/-- Two parts read side by side; the issues of both are kept. -/
def both {α β γ : Type} (f : α → β → γ) : Checked α → Checked β → Checked γ
  | .ok a, .ok b => .ok (f a b)
  | .error issues, .ok _ => .error issues
  | .ok _, .error issues => .error issues
  | .error first, .error second => .error (first ++ second)

/-- A list of parts read side by side, with a step to each. -/
def all {α β : Type} (step : Nat → α → Step) (read : α → Checked β) :
    (position : Nat) → List α → Checked (List β)
  | _, [] => .ok []
  | i, a :: rest => both (· :: ·) ((read a).under (step i a)) (all step read (i + 1) rest)

end Checked

end ApiTools
