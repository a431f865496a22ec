import OpenApi.Yaml.Token

/-!
# Yaml/Node — the graph of a document

The tokens of a text make a graph of nodes: scalars, sequences and mappings, each with its tag, the
one written in front of it or the one that follows from its form.  An alias is the node it stands
for, so a node may stand in several places, and a collection may be inside of itself.
-/

namespace OpenApi.Yaml

/-- The number of a node. -/
abbrev NodeId := Nat

/-- What a node consists of. -/
inductive Shape where
  | scalar (text : String)
  | sequence (elements : List NodeId)
  | mapping (members : List (NodeId × NodeId))
deriving DecidableEq, Repr

/-- A node of a document. -/
structure Node where
  tag : String
  shape : Shape
deriving DecidableEq, Repr

/-- The tags of the YAML type repository. -/
def coreTag (word : String) : String := "tag:yaml.org,2002:" ++ word

/-- The word of a kind of scalar in its tag. -/
def ScalarKind.word : ScalarKind → String
  | .null => "null"
  | .bool => "bool"
  | .int => "int"
  | .float => "float"
  | .timestamp => "timestamp"
  | .merge => "merge"
  | .defaultValue => "value"
  | .reserved => "yaml"
  | .str => "str"

/-- The tag that an unquoted text has by its form. -/
def plainTag (text : String) : String := coreTag (ScalarKind.of text).word

/-! ## Graphs -/

/-- The nodes of a document by their numbers. -/
structure Graph where
  nodes : Array Node := #[]

namespace Graph

/-- The number of nodes. -/
def size (g : Graph) : Nat := g.nodes.size

/-- A node; a number that no node has leads to null. -/
def node (g : Graph) (i : NodeId) : Node := g.nodes[i]?.getD ⟨coreTag "null", .scalar ""⟩

/-- The graph with one more node, and its number. -/
def add (g : Graph) (n : Node) : NodeId × Graph := (g.size, ⟨g.nodes.push n⟩)

/-- The graph with another node in the place of one. -/
def set (g : Graph) (i : NodeId) (n : Node) : Graph := ⟨g.nodes.setIfInBounds i n⟩

/-- The members of a mapping; other nodes have none. -/
def members (g : Graph) (i : NodeId) : List (NodeId × NodeId) :=
  match (g.node i).shape with
  | .mapping members => members
  | _ => []

end Graph

/-! ## Composing -/

/-- The state of reading nodes: the tokens left, the graph so far, the nodes that have a name, the
meaning of tag handles. -/
structure Composition where
  tokens : List Token
  graph : Graph := {}
  anchors : List (String × NodeId) := []
  handles : List (String × String) := []

namespace Composition

/-- The handles that every document has. -/
def defaultHandles : List (String × String) := [("!", "!"), ("!!", coreTag "")]

/-- The next token. -/
def peek (s : Composition) : Token := s.tokens.headD .streamEnd

/-- The state without the next token. -/
def drop (s : Composition) : Composition := { s with tokens := s.tokens.drop 1 }

/-- The refusal of the next token, which may have no value by itself. -/
def refuse {α : Type} (s : Composition) : Except ReadError α :=
  match s.peek with
  | .faulty e => .error e
  | _ => .error .malformed

/-- A new node, with its name if it has one. -/
def place (s : Composition) (anchor : Option String) (n : Node) : NodeId × Composition :=
  let (i, graph) := s.graph.add n
  (i, { s with graph, anchors := anchor.elim s.anchors fun a => Table.insert a i s.anchors })

/-- The state with another shape of a node. -/
def reshape (s : Composition) (i : NodeId) (shape : Shape) : Composition :=
  { s with graph := s.graph.set i { s.graph.node i with shape } }

/-- The node where nothing is written. -/
def empty (s : Composition) : NodeId × Composition :=
  s.place none ⟨coreTag "null", .scalar ""⟩

/-- What stands in front of a node: an anchor and a tag, in any order. -/
structure Properties where
  anchor : Option String := none
  tag : Option (Option String × String) := none

/-- Reads an anchor and a tag. -/
def properties (s : Composition) : Properties × Composition :=
  match s.tokens with
  | .anchor a :: .tag h t :: rest => (⟨some a, some (h, t)⟩, { s with tokens := rest })
  | .tag h t :: .anchor a :: rest => (⟨some a, some (h, t)⟩, { s with tokens := rest })
  | .anchor a :: rest => (⟨some a, none⟩, { s with tokens := rest })
  | .tag h t :: rest => (⟨none, some (h, t)⟩, { s with tokens := rest })
  | _ => ({}, s)

/-- The full text of a tag, whose handle must be known; the lone mark leaves the tag open. -/
def fullTag? (s : Composition) : Option (Option String × String) → Option (Option String)
  | none => some none
  | some (none, suffix) => some (if suffix = "!" then none else some suffix)
  | some (some handle, suffix) => do
    let start ← s.handles.lookup handle
    pure (if start ++ suffix = "!" then none else some (start ++ suffix))

mutual

/-- A node; block collections and sequences without indentation only where they may stand. -/
def readNode (block indentless : Bool) : Nat → Composition → Except ReadError (NodeId × Composition)
  | 0, _ => .error .malformed
  | fuel + 1, s => do
    if let .aliasOf a := s.peek then
      return (← orMalformed (s.anchors.lookup a), s.drop)
    let (p, s) := s.properties
    let tag ← orMalformed (s.fullTag? p.tag)
    let marked := p.tag.isSome
    if p.anchor.any fun a => (s.anchors.lookup a).isSome then .error .malformed
    let sequence := s.place p.anchor ⟨tag.getD (coreTag "seq"), .sequence []⟩
    let mapping := s.place p.anchor ⟨tag.getD (coreTag "map"), .mapping []⟩
    let blank (_ : Unit) : Except ReadError (NodeId × Composition) :=
      if p.anchor.isSome || marked then
        .ok (s.place p.anchor ⟨tag.getD (coreTag "null"), .scalar ""⟩)
      else s.refuse
    match s.peek with
    | .scalar text plain =>
      let byForm := if plain || marked then plainTag text else coreTag "str"
      pure (s.drop.place p.anchor ⟨tag.getD byForm, .scalar text⟩)
    | .flowSequenceStart =>
      let (es, s) ← flowElements true fuel sequence.2.drop
      pure (sequence.1, s.reshape sequence.1 (.sequence es))
    | .flowMappingStart =>
      let (ms, s) ← flowMembers true fuel mapping.2.drop
      pure (mapping.1, s.reshape mapping.1 (.mapping ms))
    | .blockEntry =>
      if indentless then
        let (es, s) ← blockElements true fuel sequence.2
        pure (sequence.1, s.reshape sequence.1 (.sequence es))
      else blank ()
    | .blockSequenceStart =>
      if block then
        let (es, s) ← blockElements false fuel sequence.2.drop
        pure (sequence.1, s.reshape sequence.1 (.sequence es))
      else blank ()
    | .blockMappingStart =>
      if block then
        let (ms, s) ← blockMembers fuel mapping.2.drop
        pure (mapping.1, s.reshape mapping.1 (.mapping ms))
      else blank ()
    | _ => blank ()

/-- A node, or the empty node in front of one of some tokens. -/
def nodeBefore (ends : List Token) (block indentless : Bool) :
    Nat → Composition → Except ReadError (NodeId × Composition)
  | 0, _ => .error .malformed
  | fuel + 1, s =>
    if ends.contains s.peek then .ok s.empty else readNode block indentless fuel s

/-- The elements of a block sequence; one without indentation ends where no dash follows. -/
def blockElements (indentless : Bool) :
    Nat → Composition → Except ReadError (List NodeId × Composition)
  | 0, _ => .error .malformed
  | fuel + 1, s =>
    match s.peek with
    | .blockEntry => do
      let ends : List Token :=
        if indentless then [.blockEntry, .key, .value, .blockEnd] else [.blockEntry, .blockEnd]
      let (e, s) ← nodeBefore ends true false fuel s.drop
      let (es, s) ← blockElements indentless fuel s
      pure (e :: es, s)
    | .blockEnd => .ok ([], if indentless then s else s.drop)
    | _ => if indentless then .ok ([], s) else s.refuse

/-- The members of a block mapping. -/
def blockMembers : Nat → Composition → Except ReadError (List (NodeId × NodeId) × Composition)
  | 0, _ => .error .malformed
  | fuel + 1, s => do
    let ends : List Token := [.key, .value, .blockEnd]
    if s.peek = .blockEnd then return ([], s.drop)
    if s.peek ≠ .key then s.refuse
    let (k, s) ← nodeBefore ends true true fuel s.drop
    let (v, s) ←
      if s.peek = .value then nodeBefore ends true true fuel s.drop else pure s.empty
    let (ms, s) ← blockMembers fuel s
    pure ((k, v) :: ms, s)

/-- The elements between brackets; an element with a colon is a mapping of one member. -/
def flowElements (first : Bool) :
    Nat → Composition → Except ReadError (List NodeId × Composition)
  | 0, _ => .error .malformed
  | fuel + 1, s => do
    if s.peek = .flowSequenceEnd then return ([], s.drop)
    let s ← if first then pure s else if s.peek = .flowEntry then pure s.drop else s.refuse
    if s.peek = .flowSequenceEnd then return ([], s.drop)
    let (e, s) ←
      if s.peek = .key then do
        let (i, s) := s.drop.place none ⟨coreTag "map", .mapping []⟩
        let (k, s) ← nodeBefore [.value, .flowEntry, .flowSequenceEnd] false false fuel s
        let (v, s) ←
          if s.peek = .value then
            nodeBefore [.flowEntry, .flowSequenceEnd] false false fuel s.drop
          else pure s.empty
        pure (i, s.reshape i (.mapping [(k, v)]))
      else readNode false false fuel s
    let (es, s) ← flowElements false fuel s
    pure (e :: es, s)

/-- The members between braces. -/
def flowMembers (first : Bool) :
    Nat → Composition → Except ReadError (List (NodeId × NodeId) × Composition)
  | 0, _ => .error .malformed
  | fuel + 1, s => do
    if s.peek = .flowMappingEnd then return ([], s.drop)
    let s ← if first then pure s else if s.peek = .flowEntry then pure s.drop else s.refuse
    if s.peek = .flowMappingEnd then return ([], s.drop)
    let (m, s) ←
      if s.peek = .key then do
        let (k, s) ← nodeBefore [.value, .flowEntry, .flowMappingEnd] false false fuel s.drop
        let (v, s) ←
          if s.peek = .value then
            nodeBefore [.flowEntry, .flowMappingEnd] false false fuel s.drop
          else pure s.empty
        pure ((k, v), s)
      else do
        let (k, s) ← readNode false false fuel s
        let (v, s) := s.empty
        pure ((k, v), s)
    let (ms, s) ← flowMembers false fuel s
    pure (m :: ms, s)

end

/-! ## Documents -/

/-- The directives in front of a document: one version at most, which must be 1, and one meaning
for each tag handle. -/
def directives? (s : Composition) (version : Bool) :
    List Token → Option (List Token × List (String × String))
  | .versionDirective major :: ts =>
    if version || major ≠ 1 then none else directives? s true ts
  | .tagDirective handle start :: ts => do
    let (ts, handles) ← directives? s version ts
    if (handles.lookup handle).isSome then none else pure (ts, (handle, start) :: handles)
  | .otherDirective :: ts => directives? s version ts
  | ts => some (ts, [])

/-- Whether a token stands at the edge of a document. -/
def isEdge : Token → Bool
  | .versionDirective _ | .tagDirective _ _ | .otherDirective => true
  | .documentStart | .documentEnd | .streamEnd => true
  | _ => false

/-- The graph of the only document of some tokens and its first node, or nothing if there is
none. -/
def document (tokens : List Token) : Except ReadError (Option (Graph × NodeId)) := do
  let fuel := 4 * tokens.length + 4
  let start : Composition := { tokens, handles := defaultHandles }
  if start.peek = .streamEnd then return none
  let (root, s) ←
    if isEdge start.peek && start.peek ≠ .documentEnd then do
      let (tokens, handles) ← orMalformed (directives? start false tokens)
      let s : Composition := { tokens, handles := handles ++ defaultHandles }
      if s.peek ≠ .documentStart then s.refuse
      if isEdge s.drop.peek then pure s.drop.empty else s.drop.readNode true false fuel
    else start.readNode true false fuel
  let rest : Composition := { s with tokens := s.tokens.dropWhile (· = .documentEnd) }
  if rest.peek = .streamEnd then pure (some (s.graph, root)) else rest.refuse

end Composition

end OpenApi.Yaml
