import ApiTools.Text.Basic

/-!
# Tokens of YAML

The marks of the block structure stand among the tokens that are written: where a block of
entries starts and ends, and which of them are names.
-/

namespace ApiTools

namespace Yaml

/-- A line that says how the document behind it is to be read. -/
inductive Directive where
  | version (major : Nat)
  | tag (handle expansion : Text)
  | other
deriving DecidableEq

/-- The pieces a YAML text is made of. -/
inductive Token where
  | directive (d : Directive)
  | documentStart
  | documentEnd
  | blockSequenceStart
  | blockMappingStart
  | blockEnd
  | flowSequenceStart
  | flowSequenceEnd
  | flowMappingStart
  | flowMappingEnd
  | blockEntry
  | flowEntry
  | key
  | value
  | aliased (name : Text)
  | anchor (name : Text)
  /-- The kind of the node behind it: a handle to be expanded, if there is one, and the rest. -/
  | tag (handle : Option Text) (rest : Text)
  /-- A text; a plain one stands there without quotes and may be read as something else. -/
  | scalar (t : Text) (plain : Bool)
deriving DecidableEq

end Yaml

end ApiTools
