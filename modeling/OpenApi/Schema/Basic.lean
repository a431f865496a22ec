import OpenApi.Descriptor.Basic
import OpenApi.Order

/-!
# Schema/Basic — schemas and their metadata

A *schema* is the normal form a descriptor is lowered to.  One record covers all kinds, so that a
schema may also be assembled by hand; the constructors here fill in what a kind needs.  Properties
made by `Schema.object` are in ascending order of their names, so equal schemas do not depend on
the order of declarations; `required` keeps that order.
-/

namespace OpenApi

/-- What a schema is made of. -/
inductive SchemaKind where
  | primitive
  | object
  | array
  | composite (mode : Composition)
  | ref
  | any
deriving DecidableEq, Repr

/-- The word for a kind in messages. -/
def SchemaKind.word : SchemaKind → String
  | .primitive => "primitive"
  | .object => "object"
  | .array => "array"
  | .composite mode => mode.word
  | .ref => "ref"
  | .any => "any"

/-- A schema.  `refName` is the name that a reference points at, `enumValues` the only strings a
scalar admits, `additional` the schema of the properties that `properties` does not name. -/
structure Schema where
  kind : SchemaKind
  typeName : Option String := none
  properties : List (String × Schema) := []
  required : List String := []
  additional : Option Schema := none
  items : Option Schema := none
  members : List Schema := []
  refName : Option String := none
  metadata : Metadata := {}
  enumValues : Option (List String) := none
deriving Repr

namespace Schema

instance : Inhabited Schema := ⟨{ kind := .any }⟩

/-! ## Equality -/

mutual

/-- Whether two schemas agree in every field. -/
def same : Schema → Schema → Bool
  | ⟨k, t, ps, rq, ad, it, ms, rn, md, ev⟩, ⟨k', t', ps', rq', ad', it', ms', rn', md', ev'⟩ =>
    decide (k = k') && decide (t = t') && sameProperties ps ps' && decide (rq = rq') &&
      sameOption ad ad' && sameOption it it' && sameMembers ms ms' && decide (rn = rn') &&
      decide (md = md') && decide (ev = ev')

/-- Whether two property lists hold the same names and schemas in the same order. -/
def sameProperties : List (String × Schema) → List (String × Schema) → Bool
  | [], [] => true
  | (n, s) :: ps, (n', s') :: ps' => decide (n = n') && s.same s' && sameProperties ps ps'
  | _, _ => false

/-- Whether two schemas, each of which may be absent, are the same. -/
def sameOption : Option Schema → Option Schema → Bool
  | none, none => true
  | some s, some s' => s.same s'
  | _, _ => false

/-- Whether two lists hold the same schemas in the same order. -/
def sameMembers : List Schema → List Schema → Bool
  | [], [] => true
  | s :: ms, s' :: ms' => s.same s' && sameMembers ms ms'
  | _, _ => false

end

mutual

theorem same_iff : ∀ a b : Schema, a.same b = true ↔ a = b
  | ⟨_, _, ps, _, ad, it, ms, _, _, _⟩, ⟨_, _, ps', _, ad', it', ms', _, _, _⟩ => by
    simp [same, sameProperties_iff ps ps', sameOption_iff ad ad', sameOption_iff it it',
      sameMembers_iff ms ms', and_assoc]

theorem sameProperties_iff : ∀ a b : List (String × Schema), sameProperties a b = true ↔ a = b
  | [], b => by cases b <;> simp [sameProperties]
  | (n, s) :: ps, b => by
    cases b with
    | nil => simp [sameProperties]
    | cons p ps' =>
      obtain ⟨n', s'⟩ := p
      simp [sameProperties, same_iff s s', sameProperties_iff ps ps']

theorem sameOption_iff : ∀ a b : Option Schema, sameOption a b = true ↔ a = b
  | none, b => by cases b <;> simp [sameOption]
  | some s, b => by
    cases b with
    | none => simp [sameOption]
    | some s' => simp [sameOption, same_iff s s']

theorem sameMembers_iff : ∀ a b : List Schema, sameMembers a b = true ↔ a = b
  | [], b => by cases b <;> simp [sameMembers]
  | s :: ms, b => by
    cases b with
    | nil => simp [sameMembers]
    | cons s' ms' => simp [sameMembers, same_iff s s', sameMembers_iff ms ms']

end

instance : DecidableEq Schema := fun a b => decidable_of_iff _ (same_iff a b)

/-! ## Constructors -/

/-- A scalar. -/
def primitive (typeName : String) (format : Option String) : Schema :=
  { kind := .primitive, typeName := some typeName, metadata := { format } }

/-- A string that is one of the given values, the first of which is the example. -/
def stringOf (values : List String) (description : Option String) : Schema :=
  { kind := .primitive, typeName := some "string", enumValues := some values,
    metadata := { description, sample := values.head? } }

/-- An object with the given properties, put into ascending order of their names. -/
def object (properties : List (String × Schema)) (required : List String)
    (description : Option String) : Schema :=
  { kind := .object, typeName := some "object", properties := sortOn (·.1) properties, required,
    metadata := { description } }

/-- An object without named properties whose values all fit one schema. -/
def mapOf (value : Schema) (description : Option String) : Schema :=
  { kind := .object, typeName := some "object", additional := some value,
    metadata := { description } }

/-- An array whose elements all fit one schema. -/
def array (items : Schema) (description : Option String) : Schema :=
  { kind := .array, typeName := some "array", items := some items, metadata := { description } }

/-- A composition. -/
def composite (mode : Composition) (members : List Schema) (description : Option String) :
    Schema :=
  { kind := .composite mode, members, metadata := { description } }

/-- A reference to the schema stored under a name. -/
def ref (name : String) : Schema := { kind := .ref, refName := some name }

/-- The schema that every value fits. -/
def any : Schema := { kind := .any }

/-- The refusal to compose schemas under a kind that is no composition. -/
structure NotAComposition where
  kind : SchemaKind

/-- The text of the refusal. -/
def NotAComposition.message (e : NotAComposition) : String :=
  e.kind.word ++ " is not a composition kind."

/-- A composition under a kind that may turn out not to be one. -/
def compose (kind : SchemaKind) (members : List Schema) (description : Option String) :
    Except NotAComposition Schema :=
  match kind with
  | .composite mode => .ok (composite mode members description)
  | kind => .error ⟨kind⟩

/-! ## Reading a schema -/

/-- Whether the schema is a bare reference. -/
def isRef (s : Schema) : Bool := decide (s.kind = .ref)

/-- The properties as a table: a name that is repeated keeps its first place and its last schema. -/
def propertyTable (s : Schema) : List (String × Schema) := Table.ofList s.properties

mutual

/-- The names a schema refers to, with repeats, depth first: its own reference, then those of the
properties, of the additional properties, of the items and of the members. -/
def references : Schema → List String
  | ⟨_, _, ps, _, ad, it, ms, rn, _, _⟩ =>
    rn.toList ++ propertyReferences ps ++ optionReferences ad ++ optionReferences it ++
      memberReferences ms

/-- The names that the properties refer to. -/
def propertyReferences : List (String × Schema) → List String
  | [] => []
  | (_, s) :: ps => s.references ++ propertyReferences ps

/-- The names that a schema refers to, none if there is none. -/
def optionReferences : Option Schema → List String
  | none => []
  | some s => s.references

/-- The names that the members refer to. -/
def memberReferences : List Schema → List String
  | [] => []
  | s :: ms => s.references ++ memberReferences ms

end

/-! ## Metadata -/

end Schema

/-- Whether there is nothing in the metadata. -/
def Metadata.isEmpty (m : Metadata) : Bool :=
  m.description.isNone && m.format.isNone && m.sample.isNone && !m.nullable

/-- The metadata `upper` where it says something, else what `lower` says; null is admitted if
either admits it. -/
def Metadata.over (upper lower : Metadata) : Metadata where
  description := upper.description <|> lower.description
  format := upper.format <|> lower.format
  sample := upper.sample <|> lower.sample
  nullable := lower.nullable || upper.nullable

/-- **The schema with a use site's metadata on top** — merged into the schema itself, but put on an
`allOf` around a reference, since the schema behind a reference is shared with other uses. -/
def Schema.withMetadata (s : Schema) (m : Metadata) : Schema :=
  if m.isEmpty then s
  else if s.isRef then { kind := .composite .allOf, members := [s], metadata := m }
  else { s with metadata := m.over s.metadata }

end OpenApi
