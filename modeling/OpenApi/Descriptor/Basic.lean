/-!
# Descriptor/Basic — the shapes an API hands over

A *descriptor* is the shape of a value on the wire as the program that serves it declares it:
scalars, sequences, maps, structures, sum types under one of four taggings, and types with a name.
Descriptors are finite trees; a `reference` points at a named type that stands elsewhere.
-/

namespace OpenApi

/-- The scalar types of a schema. -/
inductive PrimitiveKind where
  | string
  | integer
  | number
  | boolean
deriving DecidableEq, Repr

/-- The schema word of a scalar type. -/
def PrimitiveKind.word : PrimitiveKind → String
  | .string => "string"
  | .integer => "integer"
  | .number => "number"
  | .boolean => "boolean"

/-- The ways to compose schemas: a value fits all of them, any of them or exactly one. -/
inductive Composition where
  | allOf
  | anyOf
  | oneOf
deriving DecidableEq, Repr

/-- The schema keyword of a composition. -/
def Composition.word : Composition → String
  | .allOf => "allOf"
  | .anyOf => "anyOf"
  | .oneOf => "oneOf"

/-- What a use site says about a value beside its shape; only `nullable` admits more values. -/
structure Metadata where
  description : Option String := none
  format : Option String := none
  sample : Option String := none
  nullable : Bool := false
deriving DecidableEq, Repr

/-- How a sum type writes which variant a value is. -/
inductive Tagging where
  /-- An object whose only key is the variant. -/
  | external
  /-- The payload's object with one more key, which holds the variant. -/
  | internal (tagKey : String)
  /-- An object of two keys: one holds the variant, one the payload. -/
  | adjacent (tagKey contentKey : String)
  /-- The bare payload. -/
  | untagged
deriving DecidableEq, Repr

/-- The form of a variant's payload. -/
inductive VariantStyle where
  | unit
  | newtype
  | tuple
  | struct
deriving DecidableEq, Repr

/-- One position of a tuple, over a type `τ` of descriptors. -/
structure TupleItem (τ : Type) where
  type : τ
  description : Option String := none
deriving Repr

/-- One member of a structure, over a type `τ` of descriptors.

`forceOptional` takes the name off the list of required ones and says nothing about null; `inline`
embeds a named type where a reference would stand; a skipped field is not serialized. -/
structure Field (τ : Type) where
  name : String
  type : τ
  metadata : Metadata := {}
  forceOptional : Bool := false
  skip : Bool := false
  inline : Bool := false
deriving Repr

/-- One alternative of a sum type, over a type `τ` of descriptors.

`inline` embeds named payload types where references would stand; a skipped variant is not
serialized. -/
structure Variant (τ : Type) where
  name : String
  style : VariantStyle
  items : List (TupleItem τ) := []
  fields : List (Field τ) := []
  description : Option String := none
  skip : Bool := false
  inline : Bool := false
deriving Repr

/-- The shape of a value. -/
inductive Descriptor where
  | primitive (kind : PrimitiveKind) (format : Option String)
  | array (element : Descriptor)
  | optional (inner : Descriptor)
  | map (value : Descriptor)
  | tuple (items : List (TupleItem Descriptor))
  | any
  | composite (mode : Composition) (members : List Descriptor)
  | object (name : Option String) (fields : List (Field Descriptor))
  | enum (name : String) (tagging : Tagging) (variants : List (Variant Descriptor))
      (description : Option String)
  | named (name : String) (underlying : Descriptor) (description format sample : Option String)
      (inline : Bool)
  | reference (name : String)
deriving Repr

instance : Inhabited Descriptor := ⟨.any⟩

/-! ## Variants -/

namespace Variant

variable {τ : Type}

/-- A variant without a payload. -/
def ofUnit (name : String) (description : Option String) (skip : Bool) : Variant τ :=
  { name, style := .unit, description, skip }

/-- A variant whose payload is one bare value. -/
def ofNewtype (name : String) (payload : τ) (description : Option String) (skip inline : Bool) :
    Variant τ :=
  { name, style := .newtype, items := [{ type := payload }], description, skip, inline }

/-- A variant whose payload is a sequence of values. -/
def ofTuple (name : String) (items : List (TupleItem τ)) (description : Option String)
    (skip inline : Bool) : Variant τ :=
  { name, style := .tuple, items, description, skip, inline }

/-- A variant whose payload is a structure. -/
def ofStruct (name : String) (fields : List (Field τ)) (description : Option String)
    (skip inline : Bool) : Variant τ :=
  { name, style := .struct, fields, description, skip, inline }

/-- Every style but `unit` carries a payload. -/
def hasPayload (v : Variant τ) : Bool := decide (v.style ≠ .unit)

/-- The variants that are serialized. -/
def serialized (variants : List (Variant τ)) : List (Variant τ) := variants.filter (!·.skip)

end Variant

/-! ## Names -/

namespace Descriptor

/-- The declared name of a shape, read through `optional`. -/
def displayName? : Descriptor → Option String
  | .named name _ _ _ _ _ => some name
  | .reference name => some name
  | .enum name _ _ _ => some name
  | .object name _ => name
  | .optional inner => inner.displayName?
  | _ => none

end Descriptor

end OpenApi
