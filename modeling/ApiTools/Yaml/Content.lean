import ApiTools.Encoding.Detect
import ApiTools.Yaml.Data
import ApiTools.Yaml.Lexer
import ApiTools.Yaml.Merge

/-!
# Loading YAML

Nodes are evaluated level by level, each of them once however many aliases there are: simple values
at once, and the parts of a collection after everything beside it. A name has to be a simple
value. What has been evaluated is the data of the document.
-/

namespace ApiTools

namespace Yaml

/-- A document under evaluation. -/
structure Evaluation where
  graph : Graph
  /-- The values of the simple nodes that have been met. -/
  atoms : Array (Option Atom)
  /-- Which nodes have been met. -/
  seen : Array Bool
  /-- The collections met, the last first, whose parts are still to be evaluated. -/
  waiting : List Nat

namespace Evaluation

/-- The state before anything has been met. -/
def start (g : Graph) : Evaluation :=
  ⟨g, Array.replicate g.size none, Array.replicate g.size false, []⟩

/-- Is a node of this kind made of parts? -/
def isCollection : Tag → Bool
  | .sequence | .mapping | .set | .orderedMapping | .pairs => true
  | _ => false

/-- The text of a simple node. A mapping has the text of its default entry. -/
def text? (g : Graph) : (fuel : Nat) → Nat → Option Text
  | 0, _ => none
  | fuel + 1, id =>
    match (g.node id).content with
    | .scalar t => some t
    | .sequence _ => none
    | .mapping entries =>
      match entries.find? fun (key, _) ↦ (g.node key).tag == .default with
      | some (_, value) => text? g fuel value
      | none => none

/-- A node is met. -/
def visit (e : Evaluation) (id : Nat) : Except Fault Evaluation :=
  if e.seen[id]?.getD true then .ok e
  else
    let tag := (e.graph.node id).tag
    let e := { e with seen := e.seen.setIfInBounds id true }
    if isCollection tag then .ok { e with waiting := id :: e.waiting }
    else
      match tag, text? e.graph (e.graph.size + 1) id with
      | .unknown, _ | .merge, _ | .default, _ | _, none => .error .malformed
      | tag, some t => do
        let a ← Atom.ofText tag t
        return { e with atoms := e.atoms.setIfInBounds id (some a) }

/-- The entries of a mapping are met, each name before its value. -/
def visitEntries (e : Evaluation) : List (Nat × Nat) → Except Fault Evaluation
  | [] => .ok e
  | (key, value) :: rest => do
    let e ← e.visit key
    if isCollection (e.graph.node key).tag then .error .malformed
    else visitEntries (← e.visit value) rest

/-- The items of a list of pairs are met. -/
def visitPairs (e : Evaluation) : List Nat → Except Fault Evaluation
  | [] => .ok e
  | id :: rest =>
    match e.graph.entries? id with
    | some [(key, value)] => do visitPairs (← (← e.visit key).visit value) rest
    | _ => .error .malformed

/-- The parts of a collection are met. -/
def expand (e : Evaluation) (id : Nat) : Except Fault Evaluation :=
  match (e.graph.node id).tag with
  | .sequence =>
    match e.graph.items? id with
    | some items => items.foldlM visit e
    | none => .error .malformed
  | .orderedMapping | .pairs =>
    match e.graph.items? id with
    | some items => e.visitPairs items
    | none => .error .malformed
  | _ =>
    match e.graph.merge id with
    | some g => { e with graph := g }.visitEntries ((g.entries? id).getD [])
    | none => .error .malformed

/-- The collections that are waiting are expanded, then those that they brought, until there are
none. Each level meets nodes that were not met before, so there are no more levels than nodes. -/
def run (e : Evaluation) : (levels : Nat) → Except Fault Evaluation
  | 0 => .ok e
  | levels + 1 =>
    if e.waiting = [] then .ok e
    else do
      let next ← e.waiting.reverse.foldlM expand { e with waiting := [] }
      run next levels

/-- A document evaluated from its root on. -/
def ofGraph (g : Graph) (root : Nat) : Except Fault Evaluation := do
  ((← (start g).visit root).run (g.size + 1))

/-- The value of a simple node. -/
def atom (e : Evaluation) (id : Nat) : Atom := (e.atoms[id]?.getD none).getD .null

/-- An entry among others: a name that occurs keeps its place and takes the new value. -/
def setEntry (name : Atom) (value : Nat) : List (Atom × Nat) → List (Atom × Nat)
  | [] => [(name, value)]
  | (other, old) :: rest =>
    if other.sameName name then (other, value) :: rest
    else (other, old) :: setEntry name value rest

/-- The entries of a mapping, each name once. -/
def entries (e : Evaluation) (id : Nat) : List (Atom × Nat) :=
  ((e.graph.entries? id).getD []).foldl
    (fun found (key, value) ↦ setEntry (e.atom key) value found) []

/-- The pairs of a list of pairs, each of whose items has been met as a mapping of one entry. -/
def pairs (e : Evaluation) (id : Nat) : List (Nat × Nat) :=
  ((e.graph.items? id).getD []).filterMap fun item ↦ ((e.graph.entries? item).getD []).head?

/-- What a node has been evaluated to. -/
def part (e : Evaluation) (id : Nat) : Part :=
  match (e.graph.node id).tag with
  | .mapping => .mapping (e.entries id)
  | .set => .set ((e.entries id).map (·.1))
  | .sequence => .list ((e.graph.items? id).getD [])
  | .orderedMapping | .pairs => .pairs (e.pairs id)
  | _ => .simple (e.atom id)

/-- The data of an evaluated document. -/
def data (e : Evaluation) (root : Nat) : Data where
  parts := (Array.range e.graph.size).map e.part
  root

end Evaluation

/-- The text of YAML bytes: UTF-16 behind a byte order mark of it, else UTF-8. -/
def decode? (bytes : Bytes) : Option Text := do
  let t ←
    match bytes with
    | 0xFF :: 0xFE :: _ => (Encoding.units16? .littleEndian bytes).map Encoding.joinPairs
    | 0xFE :: 0xFF :: _ => (Encoding.units16? .bigEndian bytes).map Encoding.joinPairs
    | _ => Encoding.decodeUtf8? false bytes
  if t.all fun c ↦ !c.isSurrogate then some t else none

/-- The data of YAML bytes. Bytes without a document have none but nothing. -/
def load : Loader := fun bytes ↦ do
  match decode? bytes with
  | none => .error .malformed
  | some t =>
    match Graph.ofTokens? (← tokens t) with
    | none => .error .malformed
    | some none => return .nothing
    | some (some (g, root)) => return (← Evaluation.ofGraph g root).data root

end Yaml

end ApiTools
