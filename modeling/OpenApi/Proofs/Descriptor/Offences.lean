import Mathlib.Data.List.Duplicate
import OpenApi.Proofs.Lowering.Chains
import OpenApi.Proofs.Lowering.InternalTag

/-!
# Proofs/Descriptor/Offences — what is wrong with a descriptor, and where

    d at path
    ├── c₁ at path₁  ──▸  …
    ├── c₂ at path₂  ──▸  …  ──▸  offence at path₂.…
    └── c₃ at path₃  ──▸  …

A descriptor is a tree of descriptors, each at a path of names and positions (`parts`, `Stands`).
Skipped fields and variants do not count, nor does anything below an enum of bare names.  An
*offence* is a descriptor somewhere in the tree, or a variant of one, that breaks a rule of its form
(`Breaks`); its path is that of the descriptor or of the variant.  All this is said of the
descriptor alone, without a look at schemas.
-/

namespace OpenApi

/-! ## Names that are serialized -/

/-- The names of the fields that are not skipped. -/
def liveNames {τ : Type} (fields : List (Field τ)) : List String :=
  (fields.filter (!·.skip)).map (·.name)

/-- Some serialized variant carries a payload. -/
def Variant.BearPayload {τ : Type} (variants : List (Variant τ)) : Prop :=
  ∃ v ∈ serialized variants, v.hasPayload = true

/-- **The variant is made by one of the four ways to make one** — so its items and fields are those
of its style. -/
inductive Variant.Made {τ : Type} : Variant τ → Prop
  | unit (name : String) (description : Option String) (skip : Bool) :
      Made (.ofUnit name description skip)
  | newtype (name : String) (payload : τ) (description : Option String) (skip inline : Bool) :
      Made (.ofNewtype name payload description skip inline)
  | tuple (name : String) (items : List (TupleItem τ)) (description : Option String)
      (skip inline : Bool) : Made (.ofTuple name items description skip inline)
  | struct (name : String) (fields : List (Field τ)) (description : Option String)
      (skip inline : Bool) : Made (.ofStruct name fields description skip inline)

namespace Variant

variable {τ : Type} {name : String} {description : Option String} {skip inline : Bool}

@[simp] theorem name_ofUnit : (ofUnit name description skip : Variant τ).name = name := rfl

@[simp] theorem name_ofNewtype {payload : τ} :
    (ofNewtype name payload description skip inline).name = name := rfl

@[simp] theorem name_ofTuple {items : List (TupleItem τ)} :
    (ofTuple name items description skip inline).name = name := rfl

@[simp] theorem name_ofStruct {fields : List (Field τ)} :
    (ofStruct name fields description skip inline).name = name := rfl

end Variant

/-! ## Places -/

/-- Some descriptors, each with the path it stands at. -/
abbrev Places : Type := List (DescriptorPath × Descriptor)

namespace Descriptor

/-- The path of an object: at the root, a name that is not empty is its first segment. -/
def objectPath (path : DescriptorPath) (name : Option String) : DescriptorPath :=
  if path = [] then (name.filter (· ≠ "")).toList else path

/-- The path of an enum: at the root, its name is the first segment. -/
def enumPath (path : DescriptorPath) (name : String) : DescriptorPath :=
  if path = [] then [name] else path

/-- The fields that are not skipped, each under its name. -/
def fieldParts (path : DescriptorPath) (fields : List (Field Descriptor)) : Places :=
  (fields.filter (!·.skip)).map fun f => (path.enter f.name, f.type)

/-- The items of a tuple, each under its position. -/
def itemParts (path : DescriptorPath) (items : List (TupleItem Descriptor)) : Places :=
  items.zipIdx.map fun p => (path.enter ("[" ++ toString p.2 ++ "]"), p.1.type)

/-- The members of a composition, each under its position. -/
def memberParts (path : DescriptorPath) (mode : Composition) (members : List Descriptor) : Places :=
  members.zipIdx.map fun p => (path.enter (mode.word ++ "[" ++ toString p.2 ++ "]"), p.1)

/-- The parts of a variant at the variant's path: a single item stands at the path itself. -/
def variantParts (path : DescriptorPath) (v : Variant Descriptor) : Places :=
  match v.style with
  | .unit => []
  | .struct => fieldParts path v.fields
  | .newtype | .tuple =>
    match v.items with
    | [item] => [(path, item.type)]
    | items => itemParts path items

theorem type_of_mem_fieldParts {path : DescriptorPath} {fields : List (Field Descriptor)}
    {q : DescriptorPath × Descriptor} (h : q ∈ fieldParts path fields) :
    ∃ f ∈ fields, f.type = q.2 := by
  obtain ⟨f, hf, rfl⟩ := List.mem_map.mp h
  exact ⟨f, (List.mem_filter.mp hf).1, rfl⟩

theorem type_of_mem_itemParts {path : DescriptorPath} {items : List (TupleItem Descriptor)}
    {q : DescriptorPath × Descriptor} (h : q ∈ itemParts path items) :
    ∃ i ∈ items, i.type = q.2 := by
  obtain ⟨p, hp, rfl⟩ := List.mem_map.mp h
  exact ⟨p.1, List.fst_mem_of_mem_zipIdx hp, rfl⟩

theorem mem_of_mem_memberParts {path : DescriptorPath} {mode : Composition}
    {members : List Descriptor} {q : DescriptorPath × Descriptor}
    (h : q ∈ memberParts path mode members) : q.2 ∈ members := by
  obtain ⟨p, hp, rfl⟩ := List.mem_map.mp h
  exact List.fst_mem_of_mem_zipIdx hp

theorem type_of_mem_variantParts {path : DescriptorPath} {v : Variant Descriptor}
    {q : DescriptorPath × Descriptor} (h : q ∈ variantParts path v) :
    (∃ i ∈ v.items, i.type = q.2) ∨ ∃ f ∈ v.fields, f.type = q.2 := by
  unfold variantParts at h
  split at h
  · cases h
  · exact .inr (type_of_mem_fieldParts h)
  all_goals
    split at h
    · next item heq =>
      obtain rfl := List.mem_singleton.mp h
      exact .inl ⟨item, by rw [heq]; exact List.mem_cons_self, rfl⟩
    · exact .inl (type_of_mem_itemParts h)

section Made

variable {path : DescriptorPath} {name : String} {description : Option String} {skip inline : Bool}

@[simp] theorem variantParts_ofUnit : variantParts path (.ofUnit name description skip) = [] := rfl

@[simp] theorem variantParts_ofNewtype {payload : Descriptor} :
    variantParts path (.ofNewtype name payload description skip inline) = [(path, payload)] := rfl

@[simp] theorem variantParts_ofTuple_single {item : TupleItem Descriptor} :
    variantParts path (.ofTuple name [item] description skip inline) = [(path, item.type)] := rfl

theorem variantParts_ofTuple {items : List (TupleItem Descriptor)} (several : items.length ≠ 1) :
    variantParts path (.ofTuple name items description skip inline) = itemParts path items := by
  obtain _ | ⟨item, _ | ⟨_, _⟩⟩ := items
  · rfl
  · exact absurd rfl several
  · rfl

@[simp] theorem variantParts_ofStruct {fields : List (Field Descriptor)} :
    variantParts path (.ofStruct name fields description skip inline) = fieldParts path fields :=
  rfl

end Made

/-- **The parts of a descriptor at a path**, each at its own. -/
def parts (path : DescriptorPath) : Descriptor → Places
  | .primitive _ _ | .any | .reference _ => []
  | .array element => [(path.enter "[]", element)]
  | .optional inner => [(path, inner)]
  | .map value => [(path.enter "{}", value)]
  | .tuple items => itemParts path items
  | .composite mode members => memberParts path mode members
  | .object name fields => fieldParts (objectPath path name) fields
  | .enum name _ variants _ =>
    if (Variant.serialized variants).any (·.hasPayload) then
      (Variant.serialized variants).flatMap fun v =>
        variantParts ((enumPath path name).enter v.name) v
    else []
  | .named name underlying _ _ _ _ => [(path.enter name, underlying)]

/-- **A descriptor stands at a path** in the descriptor that is put at another one. -/
inductive Stands : DescriptorPath → Descriptor → DescriptorPath → Descriptor → Prop
  | here (path : DescriptorPath) (d : Descriptor) : Stands path d path d
  | inside {path p q : DescriptorPath} {d c b : Descriptor} (part : (p, c) ∈ d.parts path)
      (rest : Stands p c q b) : Stands path d q b

/-- **The enums of the descriptor have variants that are made properly**, wherever they stand. -/
def MadeAt (path : DescriptorPath) (d : Descriptor) : Prop :=
  ∀ p name tagging variants description,
    Stands path d p (.enum name tagging variants description) → ∀ v ∈ variants, v.Made

/-! ## Rules -/

/-- **A tag can join this** as what a single payload is around: an object, a map, an `allOf`, a
reference, or an enum with payloads that is written as an object. -/
def Joins : Descriptor → Prop
  | .object _ _ | .map _ | .composite .allOf _ | .reference _ => True
  | .enum _ .external variants _ | .enum _ (.adjacent _ _) variants _ =>
    Variant.BearPayload variants
  | _ => False

/-- **This is written as an object that defines the key itself.** -/
def HasField (key : String) : Descriptor → Prop
  | .object _ fields => key ∈ liveNames fields
  | .enum _ (.adjacent tagKey contentKey) variants _ =>
    Variant.BearPayload variants ∧ (key = tagKey ∨ key = contentKey)
  | _ => False

end Descriptor

/-- **A serialized variant breaks a rule** in an enum with payloads, under a tagging. -/
inductive Variant.Breaks : Tagging → Variant Descriptor → ShapeFault → Prop
  | repeatedField {tagging : Tagging} {v : Variant Descriptor} {name : String}
      (style : v.style = .struct) (twice : List.Duplicate name (liveNames v.fields)) :
      Breaks tagging v (.repeatedField name)
  | emptyPayload {tagging : Tagging} {v : Variant Descriptor}
      (tagged : ∀ tagKey, tagging ≠ .internal tagKey) (style : v.style = .tuple)
      (empty : v.items = []) : Breaks tagging v .emptyPayload
  | untaggedUnit {v : Variant Descriptor} (style : v.style = .unit) :
      Breaks .untagged v .untaggedUnit
  | tuplePayload {tagKey : String} {v : Variant Descriptor} (style : v.style = .tuple)
      (several : v.items.length ≠ 1) : Breaks (.internal tagKey) v .tuplePayload
  | nonObjectPayload {tagKey : String} {v : Variant Descriptor} {payload : Descriptor}
      (single : v.single? = some payload) (bare : ¬ payload.core.Joins) :
      Breaks (.internal tagKey) v .nonObjectPayload
  | tagClash {tagKey : String} {v : Variant Descriptor}
      (clash : (v.style = .struct ∧ tagKey ∈ liveNames v.fields) ∨
        ∃ payload, v.single? = some payload ∧ payload.core.HasField tagKey) :
      Breaks (.internal tagKey) v (.tagClash tagKey)

namespace Variant

variable {tagging : Tagging} {fault : ShapeFault} {name : String} {description : Option String}
  {skip inline : Bool}

theorem breaks_ofUnit_iff :
    (ofUnit name description skip : Variant Descriptor).Breaks tagging fault ↔
      tagging = .untagged ∧ fault = .untaggedUnit := by
  constructor
  · rintro (⟨⟨⟩, _⟩ | ⟨_, ⟨⟩, _⟩ | _ | ⟨⟨⟩, _⟩ | ⟨⟨⟩, _⟩ | (⟨⟨⟩, _⟩ | ⟨_, ⟨⟩, _⟩))
    exact ⟨rfl, rfl⟩
  · rintro ⟨rfl, rfl⟩
    exact .untaggedUnit rfl

theorem breaks_ofStruct_iff {fields : List (Field Descriptor)} :
    (ofStruct name fields description skip inline).Breaks tagging fault ↔
      (∃ field, List.Duplicate field (liveNames fields) ∧ fault = .repeatedField field) ∨
        ∃ tagKey, tagging = .internal tagKey ∧ tagKey ∈ liveNames fields ∧
          fault = .tagClash tagKey := by
  constructor
  · rintro (⟨_, twice⟩ | ⟨_, ⟨⟩, _⟩ | ⟨⟨⟩⟩ | ⟨⟨⟩, _⟩ | ⟨⟨⟩, _⟩ | (⟨_, clash⟩ | ⟨_, ⟨⟩, _⟩))
    · exact .inl ⟨_, twice, rfl⟩
    · exact .inr ⟨_, rfl, clash, rfl⟩
  · rintro (⟨field, twice, rfl⟩ | ⟨tagKey, rfl, clash, rfl⟩)
    · exact .repeatedField rfl twice
    · exact .tagClash (.inl ⟨rfl, clash⟩)

/-- The rules for a single payload under a tag. -/
def PayloadBreaks (payload : Descriptor) (tagKey : String) (fault : ShapeFault) : Prop :=
  (¬ payload.core.Joins ∧ fault = .nonObjectPayload) ∨
    (payload.core.HasField tagKey ∧ fault = .tagClash tagKey)

theorem breaks_ofNewtype_iff {payload : Descriptor} :
    (ofNewtype name payload description skip inline).Breaks tagging fault ↔
      ∃ tagKey, tagging = .internal tagKey ∧ PayloadBreaks payload tagKey fault := by
  constructor
  · rintro (⟨⟨⟩, _⟩ | ⟨_, ⟨⟩, _⟩ | ⟨⟨⟩⟩ | ⟨⟨⟩, _⟩ | ⟨⟨⟩, bare⟩ | (⟨⟨⟩, _⟩ | ⟨_, ⟨⟩, defines⟩))
    · exact ⟨_, rfl, .inl ⟨bare, rfl⟩⟩
    · exact ⟨_, rfl, .inr ⟨defines, rfl⟩⟩
  · rintro ⟨tagKey, rfl, ⟨bare, rfl⟩ | ⟨defines, rfl⟩⟩
    · exact .nonObjectPayload rfl bare
    · exact .tagClash (.inr ⟨payload, rfl, defines⟩)

theorem breaks_ofTuple_iff {items : List (TupleItem Descriptor)} :
    (ofTuple name items description skip inline).Breaks tagging fault ↔
      ((∀ tagKey, tagging ≠ .internal tagKey) ∧ items = [] ∧ fault = .emptyPayload) ∨
        ∃ tagKey, tagging = .internal tagKey ∧
          ((items.length ≠ 1 ∧ fault = .tuplePayload) ∨
            ∃ item, items = [item] ∧ PayloadBreaks item.type tagKey fault) := by
  have single {payload : Descriptor}
      (h : (ofTuple name items description skip inline).single? = some payload) :
      ∃ item, items = [item] ∧ item.type = payload := by
    obtain _ | ⟨item, _ | ⟨_, _⟩⟩ := items
    · cases h
    · exact ⟨item, rfl, Option.some.inj h⟩
    · cases h
  constructor
  · rintro (⟨⟨⟩, _⟩ | ⟨tagged, _, empty⟩ | ⟨⟨⟩⟩ | ⟨_, several⟩ | ⟨hsingle, bare⟩ |
      (⟨⟨⟩, _⟩ | ⟨_, hsingle, defines⟩))
    · exact .inl ⟨tagged, empty, rfl⟩
    · exact .inr ⟨_, rfl, .inl ⟨several, rfl⟩⟩
    · obtain ⟨item, hitems, rfl⟩ := single hsingle
      exact .inr ⟨_, rfl, .inr ⟨item, hitems, .inl ⟨bare, rfl⟩⟩⟩
    · obtain ⟨item, hitems, rfl⟩ := single hsingle
      exact .inr ⟨_, rfl, .inr ⟨item, hitems, .inr ⟨defines, rfl⟩⟩⟩
  · rintro (⟨tagged, empty, rfl⟩ |
      ⟨tagKey, rfl, ⟨several, rfl⟩ | ⟨item, rfl, ⟨bare, rfl⟩ | ⟨defines, rfl⟩⟩⟩)
    · exact .emptyPayload tagged rfl empty
    · exact .tuplePayload rfl several
    · exact .nonObjectPayload rfl bare
    · exact .tagClash (.inr ⟨item.type, rfl, defines⟩)

end Variant

namespace Descriptor

/-- **A descriptor at a path breaks a rule of its form** — or a serialized variant of it does, at
the variant's path. -/
inductive Offends (path : DescriptorPath) : Descriptor → UnsupportedShape → Prop
  | repeatedField {name : Option String} {fields : List (Field Descriptor)} {field : String}
      (twice : List.Duplicate field (liveNames fields)) :
      Offends path (.object name fields) ⟨objectPath path name, .repeatedField field⟩
  | emptyTuple : Offends path (.tuple []) ⟨path, .emptyTuple⟩
  | emptyComposition {mode : Composition} :
      Offends path (.composite mode []) ⟨path, .emptyComposition mode⟩
  | noVariants {name : String} {tagging : Tagging} {variants : List (Variant Descriptor)}
      {description : Option String} (empty : Variant.serialized variants = []) :
      Offends path (.enum name tagging variants description)
        ⟨enumPath path name, .noVariants name⟩
  | repeatedVariant {name : String} {tagging : Tagging} {variants : List (Variant Descriptor)}
      {description : Option String} {variant : String}
      (twice : List.Duplicate variant ((Variant.serialized variants).map (·.name))) :
      Offends path (.enum name tagging variants description)
        ⟨enumPath path name, .repeatedVariant variant⟩
  | equalKeys {name key : String} {variants : List (Variant Descriptor)}
      {description : Option String} (bear : Variant.BearPayload variants) :
      Offends path (.enum name (.adjacent key key) variants description)
        ⟨enumPath path name, .equalKeys⟩
  | variant {name : String} {tagging : Tagging} {variants : List (Variant Descriptor)}
      {description : Option String} {v : Variant Descriptor} {fault : ShapeFault}
      (bear : Variant.BearPayload variants) (live : v ∈ Variant.serialized variants)
      (breaks : v.Breaks tagging fault) :
      Offends path (.enum name tagging variants description)
        ⟨(enumPath path name).enter v.name, fault⟩

/-- **Something that stands in the descriptor breaks a rule**, at its own path. -/
def Unsupported (path : DescriptorPath) (d : Descriptor) (e : UnsupportedShape) : Prop :=
  ∃ p c, Stands path d p c ∧ c.Offends p e

variable {path : DescriptorPath} {d : Descriptor} {e : UnsupportedShape}

/-- What is wrong with a descriptor is wrong with itself or with one of its parts. -/
theorem unsupported_iff :
    d.Unsupported path e ↔ d.Offends path e ∨ ∃ q ∈ d.parts path, q.2.Unsupported q.1 e := by
  constructor
  · rintro ⟨p, c, stands, offends⟩
    cases stands with
    | here => exact .inl offends
    | inside part rest => exact .inr ⟨_, part, p, c, rest, offends⟩
  · rintro (offends | ⟨⟨p, c⟩, part, q, b, rest, offends⟩)
    · exact ⟨path, d, .here path d, offends⟩
    · exact ⟨q, b, .inside part rest, offends⟩

/-- A descriptor without a rule of its own is as wrong as its only part. -/
theorem unsupported_iff_part {p : DescriptorPath} {c : Descriptor}
    (single : d.parts path = [(p, c)]) (sound : ∀ e, ¬ d.Offends path e) :
    d.Unsupported path e ↔ c.Unsupported p e := by
  rw [unsupported_iff, single, or_iff_right (sound e)]
  simp only [List.mem_singleton, exists_eq_left]

/-- Nothing is wrong with a descriptor that has neither a rule nor parts. -/
theorem not_unsupported_of_leaf (leaf : d.parts path = []) (sound : ∀ e, ¬ d.Offends path e) :
    ¬ d.Unsupported path e := by
  rw [unsupported_iff, leaf]
  rintro (offends | ⟨q, part, -⟩)
  · exact sound e offends
  · cases part

theorem offends_tuple_iff {items : List (TupleItem Descriptor)} :
    (tuple items).Offends path e ↔ items = [] ∧ e = ⟨path, .emptyTuple⟩ := by
  constructor
  · rintro ⟨⟩
    exact ⟨rfl, rfl⟩
  · rintro ⟨rfl, rfl⟩
    exact .emptyTuple

theorem offends_composite_iff {mode : Composition} {members : List Descriptor} :
    (composite mode members).Offends path e ↔
      members = [] ∧ e = ⟨path, .emptyComposition mode⟩ := by
  constructor
  · rintro ⟨⟩
    exact ⟨rfl, rfl⟩
  · rintro ⟨rfl, rfl⟩
    exact .emptyComposition

theorem offends_object_iff {name : Option String} {fields : List (Field Descriptor)} :
    (object name fields).Offends path e ↔ ∃ field, List.Duplicate field (liveNames fields) ∧
      e = ⟨objectPath path name, .repeatedField field⟩ := by
  constructor
  · rintro ⟨twice⟩
    exact ⟨_, twice, rfl⟩
  · rintro ⟨field, twice, rfl⟩
    exact .repeatedField twice

/-- The rules for enums: some serialized variants, with different names; and if any of them carries
a payload, the rules of the tagging. -/
theorem offends_enum_iff {name : String} {tagging : Tagging} {variants : List (Variant Descriptor)}
    {description : Option String} :
    (enum name tagging variants description).Offends path e ↔
      ((Variant.serialized variants = [] ∧ e = ⟨enumPath path name, .noVariants name⟩) ∨
        ∃ variant, List.Duplicate variant ((Variant.serialized variants).map (·.name)) ∧
          e = ⟨enumPath path name, .repeatedVariant variant⟩) ∨
      Variant.BearPayload variants ∧
        ((∃ key, tagging = .adjacent key key ∧ e = ⟨enumPath path name, .equalKeys⟩) ∨
          ∃ v ∈ Variant.serialized variants, ∃ fault, v.Breaks tagging fault ∧
            e = ⟨(enumPath path name).enter v.name, fault⟩) := by
  constructor
  · intro h
    cases h with
    | noVariants empty => exact .inl (.inl ⟨empty, rfl⟩)
    | repeatedVariant twice => exact .inl (.inr ⟨_, twice, rfl⟩)
    | equalKeys bear => exact .inr ⟨bear, .inl ⟨_, rfl, rfl⟩⟩
    | variant bear live breaks => exact .inr ⟨bear, .inr ⟨_, live, _, breaks, rfl⟩⟩
  · rintro ((⟨empty, rfl⟩ | ⟨variant, twice, rfl⟩) |
      ⟨bear, ⟨key, rfl, rfl⟩ | ⟨v, live, fault, breaks, rfl⟩⟩)
    · exact .noVariants empty
    · exact .repeatedVariant twice
    · exact .equalKeys bear
    · exact .variant bear live breaks

/-- Below an enum of bare names there is nothing. -/
theorem mem_parts_enum {name : String} {tagging : Tagging} {variants : List (Variant Descriptor)}
    {description : Option String} {q : DescriptorPath × Descriptor} :
    q ∈ (enum name tagging variants description).parts path ↔
      Variant.BearPayload variants ∧ ∃ v ∈ Variant.serialized variants,
        q ∈ variantParts ((enumPath path name).enter v.name) v := by
  have bear : (Variant.serialized variants).any (·.hasPayload) = true ↔
      Variant.BearPayload variants := List.any_eq_true
  rw [parts, ← bear]
  split
  · next h => rw [and_iff_right h, List.mem_flatMap]
  · next h => exact iff_of_false List.not_mem_nil fun hq => h hq.1

/-- The parts of a descriptor have the variants of the whole. -/
theorem MadeAt.part (h : d.MadeAt path) {q : DescriptorPath × Descriptor}
    (part : q ∈ d.parts path) : q.2.MadeAt q.1 :=
  fun p _ _ _ _ stands => h p _ _ _ _ (.inside part stands)

/-- The variants are made properly part by part. -/
theorem madeAt_of_parts (own : ∀ name tagging variants description,
    d = enum name tagging variants description → ∀ v ∈ variants, v.Made)
    (parts : ∀ q ∈ d.parts path, q.2.MadeAt q.1) : d.MadeAt path := by
  intro p name tagging variants description stands
  cases stands with
  | here => exact own name tagging variants description rfl
  | inside part rest => exact parts _ part p name tagging variants description rest

end Descriptor

end OpenApi
