import ApiTools.Yaml.Atom

/-!
# The data of YAML documents

What a loader of YAML makes of a document is a graph: the parts of a collection are known by their
numbers, so that one part can be shared by several collections, and a collection can stand inside
itself. Data is unfolded to JSON part by part, where a collection inside itself is refused.
-/

namespace ApiTools

namespace Yaml

/-- A part of a document. -/
inductive Part where
  | simple (a : Atom)
  | list (items : List Nat)
  /-- Names with values, in order. -/
  | mapping (entries : List (Atom × Nat))
  | set (names : List Atom)
  /-- Pairs of names and values, in order. -/
  | pairs (listed : List (Nat × Nat))

/-- The parts that a part is made of. -/
def Part.inner : Part → List Nat
  | .simple _ | .set _ => []
  | .list items => items
  | .mapping entries => entries.map (·.2)
  | .pairs listed => listed.flatMap fun p ↦ [p.1, p.2]

/-- The parts of a document by their numbers, and the number of the whole. -/
structure Data where
  parts : Array Part
  root : Nat

/-- What makes data of bytes, or tells why it does not. -/
abbrev Loader := Bytes → Except Fault Data

namespace Data

/-- The data that is nothing. -/
def nothing : Data := ⟨#[.simple .null], 0⟩

/-- The part with a number. -/
def part (d : Data) (id : Nat) : Part := d.parts[id]?.getD (.simple .null)

/-- Is the whole a mapping? -/
def isMapping (d : Data) : Bool :=
  match d.part d.root with
  | .mapping _ => true
  | _ => false

/-- A set as it is shown. -/
def setText (names : List Atom) : Except Fault Text :=
  if names.any Atom.isLong then .error .longNumber
  else if names = [] then .ok "set()"
  else .ok ("\x7b" ++ Text.join ", " (names.map Atom.literal) ++ "\x7d")

/-- A part as JSON. The parts around it are told, and no chain of different parts is longer than
their number. -/
def unfold (d : Data) : (levels : Nat) → (around : List Nat) → Nat → Except Fault Json
  | 0, _, _ => .error .circular
  | levels + 1, around, id =>
    if id ∈ around then .error .circular
    else
      match d.part id with
      | .simple a => a.toJson
      | .set names => Value.string <$> setText names
      | .list items => do return .array (← items.mapM (unfold d levels (id :: around)))
      | .mapping entries => do
        return .object (← entries.mapM fun (name, part) ↦ do
          let t ← name.name
          return (t, ← unfold d levels (id :: around) part))
      | .pairs pairs => do
        return .array (← pairs.mapM fun (name, part) ↦ do
          let k ← unfold d levels (id :: around) name
          let v ← unfold d levels (id :: around) part
          return .array [k, v])

/-- The whole as JSON. -/
def toJson (d : Data) : Except Fault Json := d.unfold (d.parts.size + 1) [] d.root

end Data

end Yaml

end ApiTools
