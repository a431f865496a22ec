import OpenApi.Yaml.Binary
import OpenApi.Yaml.Merge
import OpenApi.Yaml.Numeral

/-!
# Yaml/Value — what a YAML text means

A node means null, a string, another scalar, or a collection of other nodes; which one its tag
says.  A scalar that is tagged as a number or a date has to be one, and a key must not be a
collection.  Nodes are opened from the root on, level by level: a collection is entered after
everything that was opened before it, and the first node without a meaning is refused.

A text may hold itself, so its value is unfolded only as deep as it is asked for.
-/

namespace OpenApi.Yaml

/-! ## Scalars -/

/-- The days of a month. -/
def daysOf (year month : Nat) : Nat :=
  if month = 2 then
    if year % 4 = 0 ∧ (year % 100 ≠ 0 ∨ year % 400 = 0) then 29 else 28
  else if month ∈ [4, 6, 9, 11] then 30 else 31

/-- What is wrong with a point in time. -/
def ScalarKind.Timestamp.fault? (t : ScalarKind.Timestamp) : Option ScalarFault :=
  let offset := t.offset.getD 0
  let (hour, minute, second) := t.time.getD (0, 0, 0)
  if 1440 ≤ offset.natAbs then some (.offsetOutOfRange offset)
  else if t.year = 0 then some (.yearOutOfRange t.year)
  else if t.month = 0 ∨ 12 < t.month then some .monthOutOfRange
  else if t.day = 0 ∨ daysOf t.year t.month < t.day then some .dayOutOfRange
  else if 23 < hour then some .hourOutOfRange
  else if 59 < minute then some .minuteOutOfRange
  else if 59 < second then some .secondOutOfRange
  else none

/-- What is wrong with a text as a point in time. -/
def timestampFault? (s : String) : Option ScalarFault :=
  match ScalarKind.readTimestamp? (ScalarKind.dropLineEnd s).toList with
  | some t => t.fault?
  | none => some .notATimestamp

/-- What is wrong with a text as a truth value. -/
def boolFault? (s : String) : Option ScalarFault :=
  let word := Text.lower s
  if ["yes", "no", "true", "false", "on", "off"].contains word then none
  else some (.notATruthValue word)

/-- The text of a scalar, or of the default value of a mapping: the value under the first key that
is tagged as the mark of one.  Of `fuel` defaults of defaults the last one has none. -/
def Graph.text (g : Graph) : Nat → NodeId → Except ReadError String
  | 0, _ => .error (.scalar .endlessDefault)
  | fuel + 1, i =>
    match (g.node i).shape with
    | .scalar text => .ok text
    | .sequence _ => .error .malformed
    | .mapping members =>
      match members.find? fun m => (g.node m.1).tag = coreTag "value" with
      | some m => g.text fuel m.2
      | none => .error .malformed

/-! ## Meanings -/

/-- The tags of collections. -/
inductive CollectionTag where
  | sequence
  | mapping
  | set
  | pairs
deriving DecidableEq, Repr

/-- What a node means, in terms of other nodes. -/
inductive Meaning where
  | null
  | str (text : String)
  | scalar (kind : ScalarKind) (text : String)
  | binary (text : String)
  | collection (tag : CollectionTag) (members : List (NodeId × NodeId)) (elements : List NodeId)
deriving DecidableEq, Repr

/-- Whether a node with a meaning can be the key of a mapping. -/
def Meaning.isKey : Meaning → Bool
  | .collection .. => false
  | _ => true

/-- The collections by their tags; pairs may be ordered or not. -/
def collectionTag? (tag : String) : Option CollectionTag :=
  [(coreTag "seq", .sequence), (coreTag "map", .mapping), (coreTag "set", .set),
    (coreTag "omap", .pairs), (coreTag "pairs", .pairs)].lookup tag

/-- The meaning of a scalar with a text, or what is wrong with it. -/
def checked (kind : ScalarKind) (text : String) : Option ScalarFault → Except ReadError Meaning
  | some fault => .error (.scalar fault)
  | none => .ok (.scalar kind text)

/-- The meaning of a text under a tag; a time cannot be the default value of a mapping. -/
def textMeaning (tag text : String) (isDefault : Bool) : Except ReadError Meaning :=
  if tag = coreTag "null" then .ok .null
  else if tag = coreTag "str" then .ok (.str text)
  else if tag = coreTag "bool" then checked .bool text (boolFault? text)
  else if tag = coreTag "int" then checked .int text (Numeral.intFault? text)
  else if tag = coreTag "float" then checked .float text (Numeral.floatFault? text)
  else if tag = coreTag "timestamp" then
    checked .timestamp text (if isDefault then some .timestampOfMembers else timestampFault? text)
  else if tag = coreTag "binary" && Binary.isValid text then .ok (.binary text)
  else .error .malformed

/-- The tags of scalars. -/
def scalarTags : List String :=
  ["null", "str", "bool", "int", "float", "timestamp", "binary"].map coreTag

/-! ## Opening -/

/-- The state of opening nodes: the graph, the meanings found so far, and the collections that are
still to be entered, in order. -/
structure Opening where
  graph : Graph
  meanings : Array (Option Meaning)
  pending : List NodeId := []

namespace Opening

/-- The meaning of a node that was opened. -/
def meaning? (s : Opening) (i : NodeId) : Option Meaning := (s.meanings[i]?).join

/-- The state with a meaning of a node. -/
def mean (s : Opening) (i : NodeId) (m : Meaning) : Opening :=
  { s with meanings := s.meanings.setIfInBounds i (some m) }

/-- Opens a node, unless it is open: a scalar has its meaning at once, a collection is empty until
it is entered. -/
def openNode (i : NodeId) (s : Opening) : Except ReadError Opening :=
  match s.meaning? i with
  | some _ => .ok s
  | none =>
    let n := s.graph.node i
    match collectionTag? n.tag with
    | some tag => .ok { s.mean i (.collection tag [] []) with pending := s.pending ++ [i] }
    | none =>
      if scalarTags.contains n.tag then do
        let text ← s.graph.text (s.graph.size + 1) i
        let isDefault := match n.shape with
          | .mapping _ => true
          | _ => false
        let m ← textMeaning n.tag text isDefault
        pure (s.mean i m)
      else .error .malformed

/-- Opens the members of a mapping: each key, which must not be a collection, and then its value. -/
def openMembers (s : Opening) (members : List (NodeId × NodeId)) : Except ReadError Opening :=
  members.foldlM (fun s m => do
    let s ← s.openNode m.1
    if (s.meaning? m.1).any Meaning.isKey then s.openNode m.2 else .error .malformed) s

/-- Opens the keys and the values of mappings of one member each. -/
def openPairs (s : Opening) (elements : List NodeId) : Except ReadError Opening :=
  elements.foldlM (fun s e =>
    match (s.graph.node e).shape with
    | .mapping [m] => do (← s.openNode m.1).openNode m.2
    | _ => .error .malformed) s

/-- Enters a collection that is open: its merges are resolved and its members or elements opened. -/
def enter (i : NodeId) (tag : CollectionTag) (s : Opening) : Except ReadError Opening :=
  match tag, (s.graph.node i).shape with
  | .sequence, .sequence elements => do
    let s ← elements.foldlM (fun s e => s.openNode e) s
    pure (s.mean i (.collection tag [] elements))
  | .pairs, .sequence elements => do
    let s ← s.openPairs elements
    pure (s.mean i (.collection tag [] elements))
  | .mapping, .mapping _ | .set, .mapping _ => do
    let graph ← s.graph.resolveMerges i
    let s ← { s with graph }.openMembers (graph.members i)
    pure (s.mean i (.collection tag (graph.members i) []))
  | _, _ => .error .malformed

/-- Enters all collections that are open, and those that are opened on the way; `fuel` bounds their
number. -/
def enterAll : Nat → Opening → Except ReadError Opening
  | 0, s => .ok s
  | fuel + 1, s =>
    match s.pending with
    | [] => .ok s
    | i :: pending =>
      match s.meaning? i with
      | some (.collection tag _ _) => do enterAll fuel (← { s with pending }.enter i tag)
      | _ => enterAll fuel { s with pending }

/-- The meanings of all nodes that can be reached from one. -/
def ofGraph (g : Graph) (root : NodeId) : Except ReadError Opening := do
  let s : Opening := { graph := g, meanings := Array.replicate g.size none }
  (← s.openNode root).enterAll (g.size + 1)

end Opening

/-! ## Values -/

/-- A value.  Scalars other than null and strings keep their text; what is none of these, or lies
deeper than the value was asked for, is `other`. -/
inductive Value where
  | null
  | str (text : String)
  | scalar (kind : ScalarKind) (text : String)
  | sequence (elements : List Value)
  | mapping (members : List (Value × Value))
  | other
deriving Inhabited, Repr

/-- The value under a string key of a mapping; of several the last one counts. -/
def Value.get? (key : String) : Value → Option Value
  | .mapping members =>
    (members.reverse.find? fun m => match m.1 with
      | .str k => k = key
      | _ => false).map (·.2)
  | _ => none

/-- The value of a node, with the collections in it down to a depth. -/
def Opening.value (s : Opening) : Nat → NodeId → Value
  | depth, i =>
    match s.meaning? i, depth with
    | some .null, _ => .null
    | some (.str text), _ => .str text
    | some (.scalar kind text), _ => .scalar kind text
    | some (.collection .sequence _ elements), depth + 1 => .sequence (elements.map (s.value depth))
    | some (.collection .mapping members _), depth + 1 =>
      .mapping (members.map fun m => (s.value depth m.1, s.value depth m.2))
    | _, _ => .other

/-- **The value of a text** — with the collections in it down to a depth; a text without a document
means null. -/
def read (depth : Nat) (s : String) : Except ReadError Value := do
  let tokens ← orMalformed (tokens? s)
  match ← Composition.document tokens with
  | none => pure .null
  | some (graph, root) => pure ((← Opening.ofGraph graph root).value depth root)

end OpenApi.Yaml
