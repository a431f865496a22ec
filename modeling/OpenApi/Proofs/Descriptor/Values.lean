import OpenApi.Descriptor.Basic
import OpenApi.Proofs.Schema.Validation

/-!
# Proofs/Descriptor/Values — the values of a descriptor

What a descriptor *means*, without a word about schemas: the values of the type that it describes
(`Takes`).  A reference takes the values of the named types that are stored under its name, so the
meaning is relative to those; `stored` lists the ones that a descriptor brings along itself.

Both are about descriptors in which no value has to choose one of several forms (`ChoiceFree`):
no tuples, no `oneOf`, and no sum types but those whose variants are bare names.
-/

namespace OpenApi

/-- A value of a scalar type; the integers are among the numbers. -/
inductive Value.IsScalar : PrimitiveKind → Value → Prop
  | string (s : String) : IsScalar .string (.string s)
  | integer (n : ℤ) : IsScalar .integer (.number n)
  | number (q : ℚ) : IsScalar .number (.number q)
  | boolean (b : Bool) : IsScalar .boolean (.bool b)

/-- The words for the scalar types mean what they say. -/
theorem Value.hasType_word_iff {kind : PrimitiveKind} {v : Value} :
    v.hasType kind.word = true ↔ v.IsScalar kind := by
  constructor
  · intro h
    cases kind <;> cases v <;> simp [hasType, PrimitiveKind.word] at h
    · exact .string _
    · next q =>
      have hq : (q.num : ℚ) = q := Rat.coe_int_num_of_den_eq_one h
      exact hq ▸ .integer q.num
    · exact .number _
    · exact .boolean _
  · intro h
    cases h <;> simp [hasType, PrimitiveKind.word]

namespace Descriptor

/-- **No value of the type has to choose a form** — null beside another form is no choice. -/
inductive ChoiceFree : Descriptor → Prop
  | primitive (kind : PrimitiveKind) (format : Option String) : ChoiceFree (.primitive kind format)
  | array {element : Descriptor} (element_free : element.ChoiceFree) : ChoiceFree (.array element)
  | optional {inner : Descriptor} (inner_free : inner.ChoiceFree) : ChoiceFree (.optional inner)
  | map {value : Descriptor} (value_free : value.ChoiceFree) : ChoiceFree (.map value)
  | any : ChoiceFree .any
  | composite {mode : Composition} {members : List Descriptor} (mode_ne : mode ≠ .oneOf)
    (members_free : ∀ m ∈ members, ChoiceFree m) : ChoiceFree (.composite mode members)
  | object (name : Option String) {fields : List (Field Descriptor)}
    (fields_free : ∀ f ∈ fields, f.skip = false → ChoiceFree f.type) :
    ChoiceFree (.object name fields)
  | enum (name : String) (tagging : Tagging) {variants : List (Variant Descriptor)}
    (description : Option String)
    (bare : ∀ x ∈ variants, x.skip = false → x.hasPayload = false) :
    ChoiceFree (.enum name tagging variants description)
  | named (name : String) {underlying : Descriptor} (description format sample : Option String)
    (inline : Bool) (underlying_free : underlying.ChoiceFree) :
    ChoiceFree (.named name underlying description format sample inline)
  | reference (name : String) : ChoiceFree (.reference name)

namespace ChoiceFree

variable {d : Descriptor}

theorem of_array : (Descriptor.array d).ChoiceFree → d.ChoiceFree
  | .array h => h

theorem of_optional : (Descriptor.optional d).ChoiceFree → d.ChoiceFree
  | .optional h => h

theorem of_map : (Descriptor.map d).ChoiceFree → d.ChoiceFree
  | .map h => h

theorem of_composite {mode : Composition} {members : List Descriptor} :
    (Descriptor.composite mode members).ChoiceFree → mode ≠ .oneOf ∧ ∀ m ∈ members, m.ChoiceFree
  | .composite hmode h => ⟨hmode, h⟩

theorem of_object {name : Option String} {fields : List (Field Descriptor)} :
    (Descriptor.object name fields).ChoiceFree → ∀ f ∈ fields, f.skip = false → f.type.ChoiceFree
  | .object _ h => h

theorem of_enum {name : String} {tagging : Tagging} {variants : List (Variant Descriptor)}
    {description : Option String} :
    (Descriptor.enum name tagging variants description).ChoiceFree →
      ∀ x ∈ variants, x.skip = false → x.hasPayload = false
  | .enum _ _ _ h => h

theorem of_named {name : String} {description format sample : Option String} {inline : Bool} :
    (Descriptor.named name d description format sample inline).ChoiceFree → d.ChoiceFree
  | .named _ _ _ _ _ h => h

end ChoiceFree

/-- **The values of a choice-free descriptor**, given the named types that references may mean.

A member of an object that no serialized field names may be anything; a field that is nullable by
itself admits null beside the values of its type. -/
inductive Takes (types : String → Descriptor → Prop) : Descriptor → Value → Prop
  | primitive {kind : PrimitiveKind} (format : Option String) {v : Value} (h : v.IsScalar kind) :
    Takes types (.primitive kind format) v
  | array {element : Descriptor} {xs : List Value} (h : ∀ x ∈ xs, Takes types element x) :
    Takes types (.array element) (.array xs)
  | null (inner : Descriptor) : Takes types (.optional inner) .null
  | present {inner : Descriptor} {v : Value} (h : Takes types inner v) :
    Takes types (.optional inner) v
  | map {value : Descriptor} {ms : List (String × Value)} (h : ∀ m ∈ ms, Takes types value m.2) :
    Takes types (.map value) (.object ms)
  | any (v : Value) : Takes types .any v
  | allOf {members : List Descriptor} {v : Value} (h : ∀ d ∈ members, Takes types d v) :
    Takes types (.composite .allOf members) v
  | anyOf {members : List Descriptor} {d : Descriptor} {v : Value} (hd : d ∈ members)
    (h : Takes types d v) : Takes types (.composite .anyOf members) v
  | object (name : Option String) {fields : List (Field Descriptor)} {ms : List (String × Value)}
    (required : ∀ f ∈ fields, f.skip = false → f.forceOptional = false → ∃ m ∈ ms, m.1 = f.name)
    (typed : ∀ f ∈ fields, f.skip = false → ∀ m ∈ ms, m.1 = f.name →
      ¬ (f.metadata.nullable = true ∧ m.2 = .null) → Takes types f.type m.2) :
    Takes types (.object name fields) (.object ms)
  | enum (name : String) (tagging : Tagging) {variants : List (Variant Descriptor)}
    (description : Option String) {x : Variant Descriptor} (hx : x ∈ variants)
    (live : x.skip = false) (bare : x.hasPayload = false) :
    Takes types (.enum name tagging variants description) (.string x.name)
  | named (name : String) {underlying : Descriptor} (description format sample : Option String)
    (inline : Bool) {v : Value} (h : Takes types underlying v) :
    Takes types (.named name underlying description format sample inline) v
  | reference {name : String} {underlying : Descriptor} {v : Value} (h : types name underlying)
    (hv : Takes types underlying v) : Takes types (.reference name) v

/-! ## Named types -/

mutual

/-- **The named types that a choice-free descriptor stores**, in the order it does: inside first,
and none where the use site or the type itself asks for it to be embedded. -/
def stored (embed : Bool) : Descriptor → List (String × Descriptor)
  | .array element => element.stored false
  | .optional inner => inner.stored embed
  | .map value => value.stored false
  | .composite _ members => storedMembers members
  | .object _ fields => storedFields fields
  | .named name underlying _ _ _ inline =>
    underlying.stored embed ++ if embed || inline then [] else [(name, underlying)]
  | .primitive _ _ | .any | .tuple _ | .enum _ _ _ _ | .reference _ => []

/-- The named types that the members of a composition store. -/
def storedMembers : List Descriptor → List (String × Descriptor)
  | [] => []
  | member :: members => member.stored false ++ storedMembers members

/-- The named types that the serialized fields of a structure store. -/
def storedFields : List (Field Descriptor) → List (String × Descriptor)
  | [] => []
  | ⟨_, type, _, _, skip, inline⟩ :: fields =>
    (if skip then [] else type.stored inline) ++ storedFields fields

end

end Descriptor

end OpenApi
