import ApiTools.Yaml.Graph

/-!
# Merging entries

An entry under the merge sign stands for the entries of another mapping, or of several. They go
before the entries that are written, which therefore win; of several mappings the first wins.
-/

namespace ApiTools

namespace Yaml

namespace Graph

/-- Is an entry one under the merge sign? -/
def isMerge (g : Graph) (entry : Nat × Nat) : Bool := (g.node entry.1).tag == .merge

/-- A name that is the sign of a default is a text like any other. -/
def nameDefaults (g : Graph) (entries : List (Nat × Nat)) : Graph :=
  entries.foldl (fun g (key, _) ↦
    let n := g.node key
    if n.tag = .default then g.replace key { n with tag := .text } else g) g

mutual

/-- The graph with the merge signs of a mapping replaced by what they stand for, behind the
entries that have been merged already. -/
def mergeInto : (fuel : Nat) → (merged : List (Nat × Nat)) → Graph → Nat → Option Graph
  | 0, _, _, _ => none
  | fuel + 1, merged, g, id => do
    let entries ← g.entries? id
    match entries.find? g.isMerge with
    | none => return (g.nameDefaults entries).setEntries id (merged ++ entries)
    | some entry =>
      let g := g.setEntries id (entries.erase entry)
      match (g.node entry.2).content with
      | .mapping _ => do
        let g ← mergeInto fuel [] g entry.2
        mergeInto fuel (merged ++ (g.entries? entry.2).getD []) g id
      | .sequence items => do
        let (g, groups) ← mergeAll fuel g items
        mergeInto fuel (merged ++ groups.reverse.flatten) g id
      | .scalar _ => none

/-- The entries of some mappings, which are merged themselves first. -/
def mergeAll : (fuel : Nat) → Graph → List Nat → Option (Graph × List (List (Nat × Nat)))
  | 0, _, _ => none
  | _ + 1, g, [] => some (g, [])
  | fuel + 1, g, id :: rest => do
    let g ← mergeInto fuel [] g id
    let entries := (g.entries? id).getD []
    let (g, groups) ← mergeAll fuel g rest
    return (g, entries :: groups)

end

/-- The number of items or entries of a node. -/
def width (n : Node) : Nat :=
  match n.content with
  | .scalar _ => 0
  | .sequence items => items.length
  | .mapping entries => entries.length

/-- The graph with the merge signs of a mapping replaced. Each sign is met once, and for each of
them the items of one sequence at most. -/
def merge (g : Graph) (id : Nat) : Option Graph :=
  let total := g.foldl (fun n node ↦ n + width node) 0
  mergeInto ((total + 2) * (total + 2)) [] g id

end Graph

end Yaml

end ApiTools
