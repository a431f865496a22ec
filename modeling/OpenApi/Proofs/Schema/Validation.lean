import Mathlib.Data.Rat.Defs
import Mathlib.Order.Filter.AtTopBot.Basic
import Mathlib.Order.Filter.Finite
import OpenApi.Proofs.Order
import OpenApi.Registry

/-!
# Proofs/Schema/Validation — the values that fit a schema

    Schema.accepts refs s v          what one schema says, given what its references mean
    Registry.reads r n name v        the reference `name`, opened at most `n` deep in `r`
    Registry.Validates r s v         `accepts` with the references opened ever deeper

The reading is that of OpenAPI: a nullable schema admits null whatever else it says, a reference
admits what the schema stored under its name does, and description, format and example say nothing
about values.  `properties`, `required` and `additionalProperties` speak of objects only, `items` of
arrays only.

Since references may run in circles, they are opened to a depth; a value validates if it does from
some depth on.
-/

open Filter

namespace OpenApi

/-- A value on the wire; an object is the list of its members. -/
inductive Value where
  | null
  | bool (value : Bool)
  | number (value : ℚ)
  | string (value : String)
  | array (elements : List Value)
  | object (members : List (String × Value))
deriving Repr, Inhabited

namespace Value

/-- Whether the value is null. -/
def isNull : Value → Bool
  | .null => true
  | _ => false

/-- The elements of an array; other values have none. -/
def elements : Value → List Value
  | .array elements => elements
  | _ => []

/-- The members of an object; other values have none. -/
def members : Value → List (String × Value)
  | .object members => members
  | _ => []

/-- Whether the value is one of the given strings. -/
def isOneOf (texts : List String) : Value → Bool
  | .string s => decide (s ∈ texts)
  | _ => false

/-- **Whether the value is of the type that a schema names** — an integer is a number without a
fraction. -/
def hasType (typeName : String) : Value → Bool
  | .null => false
  | .bool _ => decide (typeName = "boolean")
  | .number q => decide (typeName = "number" ∨ typeName = "integer" ∧ q.den = 1)
  | .string _ => decide (typeName = "string")
  | .array _ => decide (typeName = "array")
  | .object _ => decide (typeName = "object")

/-- Whether the value has a member under every one of the names; only objects are asked. -/
def hasKeys (names : List String) : Value → Bool
  | .object members => names.all fun name => members.any (decide <| ·.1 = name)
  | _ => true

theorem isNull_iff {v : Value} : v.isNull = true ↔ v = .null := by
  cases v <;> simp [isNull]

theorem isOneOf_iff {texts : List String} {v : Value} :
    v.isOneOf texts = true ↔ ∃ s ∈ texts, v = .string s := by
  cases v <;> simp [isOneOf]

end Value

/-! ## One schema -/

/-- Whether a value fits a composition, given which of the members it fits. -/
def Composition.holds : Composition → List Bool → Bool
  | .allOf, fits => fits.all id
  | .anyOf, fits => fits.any id
  | .oneOf, fits => fits.count true == 1

/-- Whether a value fits the members of a schema; only compositions have any. -/
def SchemaKind.holds : SchemaKind → List Bool → Bool
  | .composite mode, fits => mode.holds fits
  | _, _ => true

namespace Schema

mutual

/-- **Whether a value fits a schema**, given what its references mean. -/
def accepts (refs : String → Value → Bool) : Schema → Value → Bool
  | ⟨kind, typeName, properties, required, additional, items, members, refName, metadata,
      enumValues⟩, v =>
    if kind = .ref then refName.any (refs · v)
    else
      (metadata.nullable && v.isNull) ||
        (typeName.all (v.hasType ·) && enumValues.all (v.isOneOf ·) &&
          v.elements.all (acceptsOption refs items) && acceptsProperties refs properties v &&
          v.hasKeys required &&
          v.members.all (fun m =>
            decide (m.1 ∈ properties.map (·.1)) || acceptsOption refs additional m.2) &&
          kind.holds (acceptsMembers refs members v))

/-- Whether a value fits a schema, if there is one. -/
def acceptsOption (refs : String → Value → Bool) : Option Schema → Value → Bool
  | none, _ => true
  | some s, v => s.accepts refs v

/-- Whether every member of a value that a property names fits that property. -/
def acceptsProperties (refs : String → Value → Bool) : List (String × Schema) → Value → Bool
  | [], _ => true
  | (name, s) :: properties, v =>
    v.members.all (fun m => decide (m.1 ≠ name) || s.accepts refs m.2) &&
      acceptsProperties refs properties v

/-- Which of some schemas a value fits. -/
def acceptsMembers (refs : String → Value → Bool) : List Schema → Value → List Bool
  | [], _ => []
  | s :: members, v => s.accepts refs v :: acceptsMembers refs members v

end

variable {refs : String → Value → Bool}

theorem acceptsMembers_eq_map (members : List Schema) (v : Value) :
    acceptsMembers refs members v = members.map (·.accepts refs v) := by
  induction members with
  | nil => rfl
  | cons s members ih => rw [acceptsMembers, ih, List.map_cons]

theorem acceptsProperties_iff {properties : List (String × Schema)} {v : Value} :
    acceptsProperties refs properties v = true ↔
      ∀ p ∈ properties, ∀ m ∈ v.members, m.1 = p.1 → p.2.accepts refs m.2 = true := by
  induction properties with
  | nil => simp [acceptsProperties]
  | cons p properties ih =>
    rw [acceptsProperties, Bool.and_eq_true, ih, List.forall_mem_cons, List.all_eq_true]
    simp [imp_iff_not_or]

theorem acceptsOption_iff {o : Option Schema} {v : Value} :
    acceptsOption refs o v = true ↔ ∀ s, o = some s → s.accepts refs v = true := by
  cases o <;> simp [acceptsOption]

/-- **What a schema says that is no reference** — one clause for each keyword. -/
theorem accepts_iff {s : Schema} (h : s.kind ≠ .ref) {v : Value} :
    s.accepts refs v = true ↔
      (s.metadata.nullable = true ∧ v = .null) ∨
        (∀ t, s.typeName = some t → v.hasType t = true) ∧
        (∀ texts, s.enumValues = some texts → v.isOneOf texts = true) ∧
        (∀ x ∈ v.elements, ∀ i, s.items = some i → i.accepts refs x = true) ∧
        (∀ p ∈ s.properties, ∀ m ∈ v.members, m.1 = p.1 → p.2.accepts refs m.2 = true) ∧
        v.hasKeys s.required = true ∧
        (∀ m ∈ v.members, m.1 ∉ s.properties.map (·.1) →
          ∀ a, s.additional = some a → a.accepts refs m.2 = true) ∧
        s.kind.holds (s.members.map (·.accepts refs v)) = true := by
  obtain ⟨kind, typeName, properties, required, additional, items, members, refName, metadata,
    enumValues⟩ := s
  rw [accepts, if_neg h]
  simp only [Bool.or_eq_true, Bool.and_eq_true, List.all_eq_true, Option.all_eq_true,
    decide_eq_true_eq, acceptsOption_iff, acceptsProperties_iff, acceptsMembers_eq_map,
    Value.isNull_iff, and_assoc, ← or_iff_not_imp_left]

/-! ## What the constructors say -/

theorem accepts_primitive_iff {kind : String} {format : Option String} {v : Value} :
    (primitive kind format).accepts refs v = true ↔ v.hasType kind = true := by
  rw [accepts_iff (by simp [primitive])]
  cases v <;> simp [primitive, SchemaKind.holds, Value.hasKeys]

theorem accepts_stringOf_iff {texts : List String} {description : Option String} {v : Value} :
    (stringOf texts description).accepts refs v = true ↔ ∃ s ∈ texts, v = .string s := by
  rw [accepts_iff (by simp [stringOf]), ← Value.isOneOf_iff]
  cases v <;> simp [stringOf, SchemaKind.holds, Value.hasKeys, Value.hasType, Value.isOneOf]

theorem accepts_array_iff {items : Schema} {description : Option String} {v : Value} :
    (array items description).accepts refs v = true ↔
      ∃ xs, v = .array xs ∧ ∀ x ∈ xs, items.accepts refs x = true := by
  rw [accepts_iff (by simp [array])]
  cases v <;>
    simp [array, SchemaKind.holds, Value.hasKeys, Value.hasType, Value.elements, Value.members]

theorem accepts_mapOf_iff {value : Schema} {description : Option String} {v : Value} :
    (mapOf value description).accepts refs v = true ↔
      ∃ ms, v = .object ms ∧ ∀ m ∈ ms, value.accepts refs m.2 = true := by
  rw [accepts_iff (by simp [mapOf])]
  cases v <;>
    simp [mapOf, SchemaKind.holds, Value.hasKeys, Value.hasType, Value.elements, Value.members]

/-- Members that no property names may be anything. -/
theorem accepts_object_iff {properties : List (String × Schema)} {required : List String}
    {description : Option String} {v : Value} :
    (object properties required description).accepts refs v = true ↔
      ∃ ms, v = .object ms ∧ (∀ name ∈ required, ∃ m ∈ ms, m.1 = name) ∧
        ∀ p ∈ properties, ∀ m ∈ ms, m.1 = p.1 → p.2.accepts refs m.2 = true := by
  rw [accepts_iff (by simp [object])]
  cases v <;>
    simp [object, SchemaKind.holds, Value.hasKeys, Value.hasType, Value.elements, Value.members,
      and_comm]

theorem accepts_allOf_iff {members : List Schema} {description : Option String} {v : Value} :
    (composite .allOf members description).accepts refs v = true ↔
      ∀ s ∈ members, s.accepts refs v = true := by
  rw [accepts_iff (by simp [composite])]
  cases v <;> simp [composite, SchemaKind.holds, Composition.holds, Value.hasKeys]

theorem accepts_anyOf_iff {members : List Schema} {description : Option String} {v : Value} :
    (composite .anyOf members description).accepts refs v = true ↔
      ∃ s ∈ members, s.accepts refs v = true := by
  rw [accepts_iff (by simp [composite])]
  cases v <;> simp [composite, SchemaKind.holds, Composition.holds, Value.hasKeys]

theorem accepts_any (v : Value) : any.accepts refs v = true := by
  rw [accepts_iff (by simp [any])]
  cases v <;> simp [any, SchemaKind.holds, Value.hasKeys]

theorem accepts_ref (name : String) (v : Value) :
    (ref name).accepts refs v = refs name v := rfl

/-- **Of a use site's metadata only `nullable` is about values** — whether it is merged into the
schema or stands on an `allOf` around a reference. -/
theorem accepts_withMetadata_iff {s : Schema} {m : Metadata} {v : Value} :
    (s.withMetadata m).accepts refs v = true ↔
      (m.nullable = true ∧ v = .null) ∨ s.accepts refs v = true := by
  rw [withMetadata]
  split
  · next hempty =>
    have hm : m.nullable = false := by
      rw [Metadata.isEmpty] at hempty
      simp_all
    simp [hm]
  · split
    · rw [accepts_iff (by simp)]
      cases v <;> simp [SchemaKind.holds, Composition.holds, Value.hasKeys]
    · next href =>
      have hkind : s.kind ≠ .ref := by simpa [isRef] using href
      have hover : ({ s with metadata := m.over s.metadata } : Schema).kind ≠ .ref := hkind
      rw [accepts_iff hkind, accepts_iff hover]
      dsimp only [Metadata.over]
      rw [Bool.or_eq_true, or_and_right, or_assoc, or_left_comm]

end Schema

/-! ## References -/

namespace Registry

/-- **What a reference means** — the schema stored under its name, in which references are opened
one level less deep. -/
def reads (r : Registry) : Nat → String → Value → Bool
  | 0, _, _ => false
  | depth + 1, name, v => (r.get? name).any (·.accepts (r.reads depth) v)

theorem reads_succ_iff {r : Registry} {depth : Nat} {name : String} {v : Value} :
    r.reads (depth + 1) name v = true ↔
      ∃ s, r.get? name = some s ∧ s.accepts (r.reads depth) v = true := by
  rw [reads, Option.any_eq_true]

/-- **A value validates against a schema of a registry** — it fits as soon as references are opened
deep enough, and from there on. -/
def Validates (r : Registry) (s : Schema) (v : Value) : Prop :=
  ∀ᶠ depth in atTop, s.accepts (r.reads depth) v = true

/-- **A reference validates what the stored schema does.** -/
theorem validates_ref_iff {r : Registry} {name : String} {v : Value} :
    r.Validates (.ref name) v ↔ ∃ s, r.get? name = some s ∧ r.Validates s v := by
  have hshift : r.Validates (.ref name) v ↔
      ∀ᶠ depth in atTop, r.reads (depth + 1) name v = true := by
    simp only [Validates, Schema.accepts_ref]
    conv_lhs => rw [← map_add_atTop_eq_nat 1, eventually_map]
  rw [hshift]
  simp only [reads_succ_iff]
  cases r.get? name with
  | none => simp only [reduceCtorEq, false_and, exists_false, eventually_const]
  | some s => simp [Validates]

end Registry

/-! ## What the constructors validate

No schema but a reference looks at the depth, so each says of its parts what OpenAPI does. -/

theorem eventually_forall_mem {α : Type} {xs : List α} {P : Nat → α → Prop} :
    (∀ᶠ n in atTop, ∀ x ∈ xs, P n x) ↔ ∀ x ∈ xs, ∀ᶠ n in atTop, P n x :=
  eventually_all_finite xs.finite_toSet

theorem eventually_exists_eq {α β : Type} {f : β → α} (hf : f.Injective) {a : α}
    {P : Nat → β → Prop} :
    (∀ᶠ n in atTop, ∃ b, a = f b ∧ P n b) ↔ ∃ b, a = f b ∧ ∀ᶠ n in atTop, P n b := by
  constructor
  · intro h
    obtain ⟨-, b, rfl, -⟩ := h.exists
    refine ⟨b, rfl, h.mono ?_⟩
    rintro n ⟨c, hc, hP⟩
    exact hf hc ▸ hP
  · rintro ⟨b, rfl, h⟩
    exact h.mono fun n hn => ⟨b, rfl, hn⟩

namespace Registry

variable {r : Registry} {v : Value}

theorem validates_primitive_iff {kind : String} {format : Option String} :
    r.Validates (.primitive kind format) v ↔ v.hasType kind = true := by
  simp only [Validates, Schema.accepts_primitive_iff, eventually_const]

theorem validates_stringOf_iff {texts : List String} {description : Option String} :
    r.Validates (.stringOf texts description) v ↔ ∃ s ∈ texts, v = .string s := by
  simp only [Validates, Schema.accepts_stringOf_iff, eventually_const]

theorem validates_array_iff {items : Schema} {description : Option String} :
    r.Validates (.array items description) v ↔
      ∃ xs, v = .array xs ∧ ∀ x ∈ xs, r.Validates items x := by
  simp only [Validates, Schema.accepts_array_iff]
  rw [eventually_exists_eq fun _ _ h => Value.array.inj h]
  simp only [eventually_forall_mem]

theorem validates_mapOf_iff {value : Schema} {description : Option String} :
    r.Validates (.mapOf value description) v ↔
      ∃ ms, v = .object ms ∧ ∀ m ∈ ms, r.Validates value m.2 := by
  simp only [Validates, Schema.accepts_mapOf_iff]
  rw [eventually_exists_eq fun _ _ h => Value.object.inj h]
  simp only [eventually_forall_mem]

theorem validates_object_iff {properties : List (String × Schema)} {required : List String}
    {description : Option String} :
    r.Validates (.object properties required description) v ↔
      ∃ ms, v = .object ms ∧ (∀ name ∈ required, ∃ m ∈ ms, m.1 = name) ∧
        ∀ p ∈ properties, ∀ m ∈ ms, m.1 = p.1 → r.Validates p.2 m.2 := by
  simp only [Validates, Schema.accepts_object_iff]
  rw [eventually_exists_eq fun _ _ h => Value.object.inj h]
  simp only [eventually_and, eventually_const, eventually_forall_mem, eventually_imp_distrib_left]

theorem validates_allOf_iff {members : List Schema} {description : Option String} :
    r.Validates (.composite .allOf members description) v ↔ ∀ s ∈ members, r.Validates s v := by
  simp only [Validates, Schema.accepts_allOf_iff, eventually_forall_mem]

theorem validates_anyOf {members : List Schema} {description : Option String} {s : Schema}
    (hs : s ∈ members) (h : r.Validates s v) :
    r.Validates (.composite .anyOf members description) v :=
  h.mono fun _ hn => Schema.accepts_anyOf_iff.mpr ⟨s, hs, hn⟩

theorem validates_any (v : Value) : r.Validates .any v :=
  .of_forall fun _ => Schema.accepts_any v

theorem validates_withMetadata_iff {s : Schema} {m : Metadata} :
    r.Validates (s.withMetadata m) v ↔ (m.nullable = true ∧ v = .null) ∨ r.Validates s v := by
  simp only [Validates, Schema.accepts_withMetadata_iff, eventually_or_distrib_left]

end Registry

end OpenApi
