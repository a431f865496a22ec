import OpenApi.Journal
import OpenApi.Lowering.Shape
import OpenApi.Schema.Basic

/-!
# Lowering/Basic — from descriptors to schemas

`lower` turns a descriptor into a schema and lists the named schemas to store on the way.  It reads
no stored schema, so the schema of a descriptor is the same whatever has been stored before; and to
store them all in the end comes to the same as to store each at once
(`Registry.synthesize_eq_synthesizeOn`).  A named type becomes a reference unless the use site or the
type itself asks for it to be embedded.

The first argument of `lower` says whether the use site embeds: then a chain of `named` and
`optional` is opened down to its content, and a `reference`, whose target may not be stored yet,
stays a reference.
-/

namespace OpenApi

/-- A schema to store under a name. -/
structure Definition where
  name : String
  schema : Schema
deriving DecidableEq, Repr

/-- The definitions a lowering asks for, and the schema or the unsupported shape it ends in. -/
abbrev Lowering (α : Type) : Type := Journal Definition UnsupportedShape α

namespace Lowering

/-- The failure at a path. -/
def unsupported {α : Type} (path : DescriptorPath) (fault : ShapeFault) : Lowering α :=
  Journal.fail ⟨path, fault⟩

/-- Asks for a schema to be stored under a name. -/
def define (name : String) (schema : Schema) : Lowering Unit := Journal.tell ⟨name, schema⟩

/-- A failure unless the condition holds. -/
def require (condition : Bool) (path : DescriptorPath) (fault : ShapeFault) : Lowering Unit :=
  if condition then pure () else unsupported path fault

/-- A tuple of some members: an array whose elements fit exactly one of them. -/
def tuple (path : DescriptorPath) (description : Option String) (nonempty : Bool)
    (members : Lowering (List Schema)) : Lowering Schema := do
  require nonempty path .emptyTuple
  pure (Schema.array (Schema.composite .oneOf (← members) none) description)

/-- A structure of some properties, with the names of those that are required. -/
def object (description : Option String)
    (fields : Lowering (List (String × Schema) × List String)) : Lowering Schema := do
  let (properties, required) ← fields
  pure (Schema.object properties required description)

end Lowering

/-- A text, or another one where it is absent or empty. -/
def nonEmptyOr (text fallback : Option String) : Option String :=
  match text with
  | some "" | none => fallback
  | some s => some s

/-! ## Sum types, apart from their payloads -/

namespace Variant

variable {τ : Type}

/-- The first name that an earlier element of the list has. -/
def repeatedName? : List String → List String → Option String
  | _, [] => none
  | seen, n :: ns => if n ∈ seen then some n else repeatedName? (n :: seen) ns

/-- The variants that are serialized, which must exist and have different names. -/
def check (enum : String) (variants : List (Variant τ)) (path : DescriptorPath) :
    Lowering Unit := do
  Lowering.require (!(serialized variants).isEmpty) path (.noVariants enum)
  match repeatedName? [] ((serialized variants).map (·.name)) with
  | some name => Lowering.unsupported path (.repeatedVariant name)
  | none => pure ()

/-- The schema of the key that holds the variant: one of the given names. -/
def tagProperty (enum : String) (names : List String) : Schema :=
  Schema.stringOf names (some (enum ++ " type variant"))

/-- The object that holds nothing but the key of the variant. -/
def tagObject (tagKey : String) (tag : Schema) : Schema :=
  Schema.object [(tagKey, tag)] [tagKey] none

/-- **An internally tagged branch** — the tag joins an `allOf` as one more member and an object as
one more required property, which the payload must not define itself. -/
def tagged (tagKey : String) (tag : Schema) (description : Option String) (payload : Schema)
    (path : DescriptorPath) : Lowering Schema :=
  let metadata :=
    { payload.metadata with description := nonEmptyOr description payload.metadata.description }
  if payload.kind = .composite .allOf then
    pure { payload with members := payload.members ++ [tagObject tagKey tag], metadata }
  else if (Table.get? tagKey payload.properties).isSome then
    Lowering.unsupported path (.tagClash tagKey)
  else
    pure
      { payload with
        properties := sortOn (·.1) (payload.propertyTable ++ [(tagKey, tag)])
        required := payload.required ++ [tagKey]
        metadata }

/-- The embedded payload of an internally tagged variant as the tag can join it: an object or an
`allOf` as they are, a reference inside an `allOf`. -/
def joinable (payload : Schema) (path : DescriptorPath) : Lowering Schema :=
  if payload.isRef then pure (Schema.composite .allOf [payload] none)
  else if payload.kind = .object ∨ payload.kind = .composite .allOf then pure payload
  else Lowering.unsupported path .nonObjectPayload

/-- The schema of an externally tagged value: an object whose values are the branches. -/
def externalObject (branches : List Schema) (description : Option String) : Schema :=
  Schema.mapOf (Schema.composite .oneOf branches description) description

/-- The schema of an adjacently tagged value: an object of two required keys. -/
def adjacentObject (tagKey contentKey : String) (tag : Schema) (payloads : List Schema)
    (description : Option String) : Schema :=
  Schema.object
    [(tagKey, tag), (contentKey, Schema.composite .oneOf payloads description)]
    [tagKey, contentKey] description

end Variant

/-! ## Lowering -/

namespace Descriptor

mutual

/-- **The schema of a descriptor** — at a path, with the definitions of the named types in it, for
a use site that embeds named types or not. -/
def lower (embed : Bool) (path : DescriptorPath) : Descriptor → Lowering Schema
  | .primitive kind format => pure (Schema.primitive kind.word format)
  | .array element => do
    let items ← element.lower false (path.enter "[]")
    pure (Schema.array items none)
  | .optional inner => do
    let schema ← inner.lower embed path
    pure (schema.withMetadata { nullable := true })
  | .map value => do
    let schema ← value.lower false (path.enter "{}")
    pure (Schema.mapOf schema none)
  | .tuple items => Lowering.tuple path none (!items.isEmpty) (lowerItems false path 0 items)
  | .any => pure Schema.any
  | .composite mode members => do
    Lowering.require (!members.isEmpty) path (.emptyComposition mode)
    let schemas ← lowerMembers path mode 0 members
    pure (Schema.composite mode schemas none)
  | .object name fields =>
    let path := if path = [] then (name.filter (· ≠ "")).toList else path
    Lowering.object none (lowerFields false path [] fields)
  | .enum name tagging variants description => do
    let path : DescriptorPath := if path = [] then [name] else path
    Variant.check name variants path
    let live := Variant.serialized variants
    if !live.any (·.hasPayload) then
      pure (Schema.stringOf (live.map (·.name)) description)
    else
      match tagging with
      | .external => do
        let branches ← lowerExternal path variants
        pure (Variant.externalObject branches description)
      | .internal tagKey => do
        let branches ← lowerInternal name tagKey path variants
        pure (Schema.composite .oneOf branches description)
      | .adjacent tagKey contentKey => do
        Lowering.require (tagKey ≠ contentKey) path .equalKeys
        let payloads ← lowerPayloads path variants
        let tag := Variant.tagProperty name (live.map (·.name))
        pure (Variant.adjacentObject tagKey contentKey tag payloads description)
      | .untagged => do
        match live.find? (!·.hasPayload) with
        | some v => Lowering.unsupported (path.enter v.name) .untaggedUnit
        | none => pure ()
        let branches ← lowerPayloads path variants
        pure (Schema.composite .oneOf branches description)
  | .named name underlying description format sample inline => do
    let content ← underlying.lower embed (path.enter name)
    let schema := content.withMetadata { description, format, sample }
    if embed || inline then pure schema
    else do
      Lowering.define name schema
      pure (Schema.ref name)
  | .reference name => pure (Schema.ref name)

/-- The members of a composition, each under its position. -/
def lowerMembers (path : DescriptorPath) (mode : Composition) (index : Nat) :
    List Descriptor → Lowering (List Schema)
  | [] => pure []
  | member :: members => do
    let schema ← member.lower false (path.enter (mode.word ++ "[" ++ toString index ++ "]"))
    let schemas ← lowerMembers path mode (index + 1) members
    pure (schema :: schemas)

/-- The items of a tuple, each under its position. -/
def lowerItems (embed : Bool) (path : DescriptorPath) (index : Nat) :
    List (TupleItem Descriptor) → Lowering (List Schema)
  | [] => pure []
  | ⟨type, description⟩ :: items => do
    let schema ← type.lower embed (path.enter ("[" ++ toString index ++ "]"))
    let schemas ← lowerItems embed path (index + 1) items
    pure (schema.withMetadata { description } :: schemas)

/-- The properties of the serialized fields and the names of the required ones, given the names of
the fields before. -/
def lowerFields (embed : Bool) (path : DescriptorPath) (seen : List String) :
    List (Field Descriptor) → Lowering (List (String × Schema) × List String)
  | [] => pure ([], [])
  | ⟨name, type, metadata, forceOptional, skip, inline⟩ :: fields =>
    if skip then lowerFields embed path seen fields
    else if name ∈ seen then Lowering.unsupported path (.repeatedField name)
    else do
      let schema ← type.lower (embed || inline) (path.enter name)
      let (properties, required) ← lowerFields embed path (name :: seen) fields
      pure ((name, schema.withMetadata metadata) :: properties,
        if forceOptional then required else name :: required)

/-- The payload of a variant, at the variant's own path. -/
def lowerPayload (path : DescriptorPath) : Variant Descriptor → Lowering Schema
  | ⟨_, .struct, _, fields, description, _, inline⟩ =>
    Lowering.object description (lowerFields inline path [] fields)
  | ⟨_, _, [], _, _, _, _⟩ => Lowering.unsupported path .emptyPayload
  | ⟨_, .newtype, ⟨type, note⟩ :: _, _, description, _, inline⟩
  | ⟨_, _, [⟨type, note⟩], _, description, _, inline⟩ => do
    let schema ← type.lower inline path
    pure (schema.withMetadata { description := nonEmptyOr description note })
  | ⟨_, _, items, _, description, _, inline⟩ =>
    Lowering.tuple path description true (lowerItems inline path 0 items)

/-- The payloads of the serialized variants that have one. -/
def lowerPayloads (path : DescriptorPath) : List (Variant Descriptor) → Lowering (List Schema)
  | [] => pure []
  | v :: vs =>
    if v.skip || !v.hasPayload then lowerPayloads path vs
    else do
      let schema ← lowerPayload (path.enter v.name) v
      let schemas ← lowerPayloads path vs
      pure (schema :: schemas)

/-- The branches of an externally tagged enum: the payload, or the bare name. -/
def lowerExternal (path : DescriptorPath) : List (Variant Descriptor) → Lowering (List Schema)
  | [] => pure []
  | v :: vs =>
    if v.skip then lowerExternal path vs
    else do
      let schema ←
        if v.hasPayload then lowerPayload (path.enter v.name) v
        else pure (Schema.stringOf [v.name] v.description)
      let schemas ← lowerExternal path vs
      pure (schema :: schemas)

/-- What the tag of an internally tagged variant joins: the fields of a structure, or the embedded
content of a single payload, which is taken without looking whether it is there. -/
def lowerUntagged (path : DescriptorPath) : Variant Descriptor → Lowering Schema
  | ⟨_, .unit, _, _, _, _, _⟩ => pure (Schema.object [] [] none)
  | ⟨_, .struct, _, fields, _, _, inline⟩ =>
    Lowering.object none (lowerFields inline path [] fields)
  | ⟨_, .newtype, ⟨type, _⟩ :: _, _, _, _, _⟩
  | ⟨_, .tuple, [⟨type, _⟩], _, _, _, _⟩ => do
    let payload ← type.lower true path
    Variant.joinable payload path
  | ⟨_, .newtype, [], _, _, _, _⟩ => Lowering.unsupported path .noItem
  | ⟨_, .tuple, _, _, _, _, _⟩ => Lowering.unsupported path .tuplePayload

/-- The branches of an internally tagged enum. -/
def lowerInternal (enum tagKey : String) (path : DescriptorPath) :
    List (Variant Descriptor) → Lowering (List Schema)
  | [] => pure []
  | v :: vs =>
    if v.skip then lowerInternal enum tagKey path vs
    else do
      let payload ← lowerUntagged (path.enter v.name) v
      let schema ← Variant.tagged tagKey (Variant.tagProperty enum [v.name]) v.description payload
        (path.enter v.name)
      let schemas ← lowerInternal enum tagKey path vs
      pure (schema :: schemas)

end

end Descriptor

end OpenApi
