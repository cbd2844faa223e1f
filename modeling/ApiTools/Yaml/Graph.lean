import ApiTools.Yaml.Cursor
import ApiTools.Yaml.Tag
import ApiTools.Yaml.Token

/-!
# Nodes of a YAML document

A document is a graph: an alias stands for the very node that its anchor names, so a node can
occur at several places, and inside itself. Nodes are known by their numbers.
-/

namespace ApiTools

namespace Yaml

/-- What a node holds. -/
inductive Content where
  | scalar (t : Text)
  | sequence (items : List Nat)
  | mapping (entries : List (Nat × Nat))
deriving DecidableEq

/-- A node of a document. -/
structure Node where
  tag : Tag
  content : Content
deriving DecidableEq

/-- The nodes of a document by their numbers. -/
abbrev Graph := Array Node

namespace Graph

/-- A node that stands where there is none. -/
def absent : Node := ⟨.unknown, .scalar []⟩

/-- The node with a number. -/
def node (g : Graph) (id : Nat) : Node := g[id]?.getD absent

/-- The graph with one node replaced. -/
def replace (g : Graph) (id : Nat) (n : Node) : Graph := g.setIfInBounds id n

/-- The entries of a node, if it is a mapping. -/
def entries? (g : Graph) (id : Nat) : Option (List (Nat × Nat)) :=
  match (g.node id).content with
  | .mapping entries => some entries
  | _ => none

/-- The items of a node, if it is a sequence. -/
def items? (g : Graph) (id : Nat) : Option (List Nat) :=
  match (g.node id).content with
  | .sequence items => some items
  | _ => none

/-- The graph with other entries in a mapping. -/
def setEntries (g : Graph) (id : Nat) (entries : List (Nat × Nat)) : Graph :=
  g.replace id { g.node id with content := .mapping entries }

end Graph

/-! ## From tokens to nodes -/

/-- How far the tokens of a document have been read. -/
structure Reader where
  tokens : List Token
  nodes : Graph
  anchors : List (Text × Nat)
  /-- What the handles of tags stand for. -/
  handles : List (Text × Text)

namespace Reader

/-- A step of reading: a result, or nothing if the tokens are in no order of a document. -/
abbrev Step (α : Type) := StateT Reader Option α

/-- The next token, which stays. -/
def peek : Step (Option Token) := return (← get).tokens.head?

/-- The next token is passed over. -/
def drop : Step Unit := modify fun r ↦ { r with tokens := r.tokens.drop 1 }

/-- The next token is passed over if it is the given one. -/
def takes (t : Token) : Step Bool := do
  if (← peek) = some t then
    drop
    return true
  else return false

/-- The next token has to be the given one. -/
def expect (t : Token) : Step Unit := do
  if ← takes t then return () else failure

/-- Is the next token one of some? -/
def sees (ts : List Token) : Step Bool := do
  match ← peek with
  | some t => return decide (t ∈ ts)
  | none => return false

/-- The number of a new node. -/
def add (n : Node) : Step Nat := do
  let r ← get
  set { r with nodes := r.nodes.push n }
  return r.nodes.size

/-- A node gets its content. -/
def fill (id : Nat) (content : Content) : Step Unit :=
  modify fun r ↦ { r with nodes := r.nodes.replace id { r.nodes.node id with content } }

/-- A node that is not written. -/
def empty : Step Nat := add ⟨Tag.ofText [], .scalar []⟩

/-- The anchor and the tag before a node, in either order. -/
def properties : Step (Option Text × Option (Option Text × Text)) := do
  match ← peek with
  | some (.anchor name) =>
    drop
    match ← peek with
    | some (.tag handle rest) =>
      drop
      return (some name, some (handle, rest))
    | _ => return (some name, none)
  | some (.tag handle rest) =>
    drop
    match ← peek with
    | some (.anchor name) =>
      drop
      return (some name, some (handle, rest))
    | _ => return (none, some (handle, rest))
  | _ => return (none, none)

/-- The full name of a tag. -/
def tagName : Option Text × Text → Step Text
  | (none, rest) => return rest
  | (some handle, rest) => do
    match (← get).handles.find? fun h ↦ h.1 = handle with
    | some (_, expansion) => return expansion ++ rest
    | none => failure

/-- The kind of a node: the one it is said to be, or else the one it is by itself. A tag that is
only an exclamation mark says nothing. -/
def kind (name : Option Text) (byItself : Tag) : Tag :=
  match name with
  | none => byItself
  | some name => if name = ("!" : Text) then byItself else Tag.ofName name

/-- An anchor for a node; a second one of the same name is refused. -/
def anchor (name : Option Text) (id : Nat) : Step Unit := do
  match name with
  | none => return ()
  | some name =>
    if (← get).anchors.any fun a ↦ a.1 = name then failure
    else modify fun r ↦ { r with anchors := (name, id) :: r.anchors }

/-- Where a node stands. -/
inductive Place where
  /-- Between brackets: there are no blocks. -/
  | flow
  | block
  /-- In a mapping, where the entries of a sequence need no deeper column. -/
  | entry
deriving DecidableEq

mutual

/-- The node at the next tokens. -/
def node : (fuel : Nat) → Place → Step Nat
  | 0, _ => failure
  | fuel + 1, place => do
    match ← peek with
    | some (.aliased name) =>
      drop
      match (← get).anchors.find? fun a ↦ a.1 = name with
      | some (_, id) => return id
      | none => failure
    | _ =>
      let (name, given) ← properties
      let tag ← given.mapM tagName
      let begin (byItself : Tag) (content : Content) : Step Nat := do
        let id ← add ⟨kind tag byItself, content⟩
        anchor name id
        return id
      match ← peek with
      | some (.scalar t plain) =>
        drop
        let byItself := if plain ∨ tag = some ("!" : Text) then Tag.ofText t else .text
        begin byItself (.scalar t)
      | some .flowSequenceStart =>
        drop
        let id ← begin .sequence (.sequence [])
        fill id (.sequence (← flowItems fuel true))
        return id
      | some .flowMappingStart =>
        drop
        let id ← begin .mapping (.mapping [])
        fill id (.mapping (← flowEntries fuel true))
        return id
      | some .blockSequenceStart =>
        if place = .flow then unwritten name tag
        else
          drop
          let id ← begin .sequence (.sequence [])
          fill id (.sequence (← blockItems fuel [.blockEntry, .blockEnd]))
          expect .blockEnd
          return id
      | some .blockMappingStart =>
        if place = .flow then unwritten name tag
        else
          drop
          let id ← begin .mapping (.mapping [])
          fill id (.mapping (← blockEntries fuel))
          expect .blockEnd
          return id
      | some .blockEntry =>
        if place = .entry then
          let id ← begin .sequence (.sequence [])
          fill id (.sequence (← blockItems fuel [.blockEntry, .key, .value, .blockEnd]))
          return id
        else unwritten name tag
      | _ => unwritten name tag

/-- A node of which only the anchor or the tag is written. -/
def unwritten (name tag : Option Text) : Step Nat := do
  if name = none ∧ tag = none then failure
  else
    let id ← add ⟨kind tag (Tag.ofText []), .scalar []⟩
    anchor name id
    return id

/-- A node, unless one of some tokens comes next: then nothing is written for it. -/
def nodeUnless : (fuel : Nat) → Place → List Token → Step Nat
  | 0, _, _ => failure
  | fuel + 1, place, ends => do
    if ← sees ends then empty else node fuel place

/-- The items of a sequence, each behind its sign. -/
def blockItems : (fuel : Nat) → List Token → Step (List Nat)
  | 0, _ => failure
  | fuel + 1, ends => do
    if ← takes .blockEntry then
      let id ← nodeUnless fuel .block ends
      return id :: (← blockItems fuel ends)
    else return []

/-- The entries of a block. -/
def blockEntries : (fuel : Nat) → Step (List (Nat × Nat))
  | 0 => failure
  | fuel + 1 => do
    let ends : List Token := [.key, .value, .blockEnd]
    if ← takes .key then
      let name ← nodeUnless fuel .entry ends
      let value ← if ← takes .value then nodeUnless fuel .entry ends else empty
      return (name, value) :: (← blockEntries fuel)
    else return []

/-- The items between square brackets. One with a colon is a mapping of one entry. -/
def flowItems : (fuel : Nat) → (isFirst : Bool) → Step (List Nat)
  | 0, _ => failure
  | fuel + 1, isFirst => do
    if ← takes .flowSequenceEnd then return []
    else
      if !isFirst then expect .flowEntry
      if ← takes .key then
        let id ← add ⟨.mapping, .mapping []⟩
        let name ← nodeUnless fuel .flow [.value, .flowEntry, .flowSequenceEnd]
        let value ←
          if ← takes .value then nodeUnless fuel .flow [.flowEntry, .flowSequenceEnd] else empty
        fill id (.mapping [(name, value)])
        return id :: (← flowItems fuel false)
      else if ← takes .flowSequenceEnd then return []
      else
        let id ← node fuel .flow
        return id :: (← flowItems fuel false)

/-- The entries between braces. One without a colon has an unwritten value. -/
def flowEntries : (fuel : Nat) → (isFirst : Bool) → Step (List (Nat × Nat))
  | 0, _ => failure
  | fuel + 1, isFirst => do
    if ← takes .flowMappingEnd then return []
    else
      if !isFirst then expect .flowEntry
      if ← takes .key then
        let name ← nodeUnless fuel .flow [.value, .flowEntry, .flowMappingEnd]
        let value ←
          if ← takes .value then nodeUnless fuel .flow [.flowEntry, .flowMappingEnd] else empty
        return (name, value) :: (← flowEntries fuel false)
      else if ← takes .flowMappingEnd then return []
      else
        let name ← node fuel .flow
        let value ← empty
        return (name, value) :: (← flowEntries fuel false)

end

/-- The handles that always stand for something. -/
def commonHandles : List (Text × Text) := [("!", "!"), ("!!", Tag.common)]

/-- The directives before a document. A second one about the version, a version that is not of
the first kind, and a second meaning of a handle are refused. -/
def directives (versionSeen : Bool) (handles : List (Text × Text)) :
    List Token → Option (List (Text × Text) × List Token)
  | .directive (.version major) :: rest =>
    if versionSeen ∨ major ≠ 1 then none else directives true handles rest
  | .directive (.tag handle expansion) :: rest =>
    if handles.any fun h ↦ h.1 = handle then none
    else directives versionSeen (handles ++ [(handle, expansion)]) rest
  | .directive .other :: rest => directives versionSeen handles rest
  | rest => some (handles, rest)

/-- The start of a document: a bare one has no line before it. -/
def opening? (tokens : List Token) : Option (Bool × List (Text × Text) × List Token) :=
  match tokens with
  | .directive _ :: _ | .documentStart :: _ => do
    let (handles, rest) ← directives false [] tokens
    match rest with
    | .documentStart :: rest => some (false, handles ++ commonHandles, rest)
    | _ => none
  | _ => some (true, commonHandles, tokens)

/-- Do only ends of documents come? -/
def isOver (tokens : List Token) : Bool := tokens.all (· == .documentEnd)

/-- A document behind its opening. Nothing need be written in one that is announced. -/
def root (isBare : Bool) (fuel : Nat) : Step Nat := do
  match ← peek with
  | none => if isBare then failure else empty
  | some (.directive _) | some .documentStart | some .documentEnd =>
    if isBare then failure else empty
  | some _ => node fuel .block

end Reader

/-- The graph of the only document that tokens hold, with the number of its root; a text without
a document has no root. -/
def Graph.ofTokens? (tokens : List Token) : Option (Option (Graph × Nat)) :=
  if tokens = [] then some none
  else do
    let (isBare, handles, rest) ← Reader.opening? tokens
    let (id, r) ← (Reader.root isBare (3 * rest.length + 3)).run ⟨rest, #[], [], handles⟩
    if Reader.isOver r.tokens then return some (r.nodes, id) else none

end Yaml

end ApiTools
