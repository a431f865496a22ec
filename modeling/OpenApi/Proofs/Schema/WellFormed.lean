import OpenApi.Proofs.Order
import OpenApi.Schema.Basic

/-!
# Proofs/Schema/WellFormed — well-formed schemas

One record holds schemas of every kind, so a record may say things that its kind has no use for.  A
schema is well formed if neither it nor any schema in it does: the fields are those of the kind, the
properties are in ascending order, and what is required is a property (`WellFormed`).  Every
constructor of schemas keeps to that.
-/

namespace OpenApi

/-- The types that a schema of a kind may name. -/
def SchemaKind.Names : SchemaKind → Option String → Prop
  | .primitive, t => ∃ kind : PrimitiveKind, t = some kind.word
  | .object, t => t = some "object"
  | .array, t => t = some "array"
  | _, t => t = none

namespace Schema

/-- **The fields of one node fit its kind** — apart from the schemas in them. -/
structure Regular (s : Schema) : Prop where
  typeName : s.kind.Names s.typeName
  ascending : (s.properties.map (·.1)).Pairwise (· < ·)
  required_nodup : s.required.Nodup
  required_subset : s.required ⊆ s.properties.map (·.1)
  object : s.kind ≠ .object → s.properties = [] ∧ s.required = [] ∧ s.additional = none
  items : s.items.isSome ↔ s.kind = .array
  members : s.members ≠ [] ↔ ∃ mode, s.kind = .composite mode
  refName : s.refName.isSome ↔ s.kind = .ref
  bare : s.kind = .ref → s.metadata = {}
  enumValues : ∀ values, s.enumValues = some values →
    s.kind = .primitive ∧ values ≠ [] ∧ values.Nodup

/-- **The fields fit the kind at every depth.** -/
inductive WellFormed : Schema → Prop
  | node {s : Schema} (regular : s.Regular) (properties : ∀ p ∈ s.properties, WellFormed p.2)
    (additional : ∀ a, s.additional = some a → WellFormed a)
    (items : ∀ i, s.items = some i → WellFormed i)
    (members : ∀ m ∈ s.members, WellFormed m) : WellFormed s

namespace WellFormed

variable {s : Schema}

theorem regular (h : s.WellFormed) : s.Regular := by
  cases h
  assumption

theorem properties (h : s.WellFormed) : ∀ p ∈ s.properties, p.2.WellFormed := by
  cases h
  assumption

theorem additional (h : s.WellFormed) : ∀ a, s.additional = some a → a.WellFormed := by
  cases h
  assumption

theorem items (h : s.WellFormed) : ∀ i, s.items = some i → i.WellFormed := by
  cases h
  assumption

theorem members (h : s.WellFormed) : ∀ m ∈ s.members, m.WellFormed := by
  cases h
  assumption

/-- **A reference carries its name and nothing else.** -/
theorem eq_ref (h : s.WellFormed) (hk : s.kind = .ref) : ∃ name, s = Schema.ref name := by
  have hr := h.regular
  obtain ⟨hp, hq, ha⟩ := hr.object (by simp [hk])
  have hm : s.members = [] := by
    by_contra hne
    obtain ⟨mode, hmode⟩ := hr.members.mp hne
    simp [hk] at hmode
  have hi : s.items = none := by
    have := mt hr.items.mp (by simp [hk])
    simpa using this
  have he : s.enumValues = none := by
    cases hv : s.enumValues with
    | none => rfl
    | some values => simpa [hk] using (hr.enumValues values hv).1
  have ht : s.typeName = none := by simpa [hk, SchemaKind.Names] using hr.typeName
  obtain ⟨name, hn⟩ := Option.isSome_iff_exists.mp (hr.refName.mpr hk)
  have hb := hr.bare hk
  refine ⟨name, ?_⟩
  cases s
  simp_all [Schema.ref]

/-! ## The constructors -/

theorem primitive (kind : PrimitiveKind) (format : Option String) :
    (Schema.primitive kind.word format).WellFormed := by
  refine .node ⟨⟨kind, rfl⟩, ?_, ?_, ?_, ?_, ?_, ?_, ?_, ?_, ?_⟩ ?_ ?_ ?_ ?_ <;>
    simp [Schema.primitive]

theorem stringOf {values : List String} (description : Option String) (hne : values ≠ [])
    (hnd : values.Nodup) : (Schema.stringOf values description).WellFormed := by
  refine .node ⟨⟨.string, rfl⟩, ?_, ?_, ?_, ?_, ?_, ?_, ?_, ?_, ?_⟩ ?_ ?_ ?_ ?_ <;>
    simp [Schema.stringOf, hne, hnd]

theorem object {properties : List (String × Schema)} {required : List String}
    (description : Option String) (hnames : (properties.map (·.1)).Nodup)
    (hproperties : ∀ p ∈ properties, p.2.WellFormed) (hnodup : required.Nodup)
    (hsubset : required ⊆ properties.map (·.1)) :
    (Schema.object properties required description).WellFormed := by
  have hkeys : ((sortOn (·.1) properties).map (·.1)).Perm (properties.map (·.1)) :=
    (sortOn_perm _ properties).map _
  refine .node ⟨rfl, ascending_sortOn hnames, hnodup, fun n hn => hkeys.mem_iff.mpr (hsubset hn),
    ?_, ?_, ?_, ?_, ?_, ?_⟩ (fun p hp => hproperties p (mem_sortOn.mp hp)) ?_ ?_ ?_ <;>
    simp [Schema.object]

theorem mapOf {value : Schema} (description : Option String) (h : value.WellFormed) :
    (Schema.mapOf value description).WellFormed := by
  refine .node ⟨rfl, ?_, ?_, ?_, ?_, ?_, ?_, ?_, ?_, ?_⟩ ?_ ?_ ?_ ?_ <;> simp [Schema.mapOf, h]

theorem array {items : Schema} (description : Option String) (h : items.WellFormed) :
    (Schema.array items description).WellFormed := by
  refine .node ⟨rfl, ?_, ?_, ?_, ?_, ?_, ?_, ?_, ?_, ?_⟩ ?_ ?_ ?_ ?_ <;> simp [Schema.array, h]

theorem composite {members : List Schema} (mode : Composition) (description : Option String)
    (hne : members ≠ []) (h : ∀ m ∈ members, m.WellFormed) :
    (Schema.composite mode members description).WellFormed := by
  refine .node ⟨rfl, ?_, ?_, ?_, ?_, ?_, ?_, ?_, ?_, ?_⟩ ?_ ?_ ?_ h <;>
    simp [Schema.composite, hne]

theorem ref (name : String) : (Schema.ref name).WellFormed := by
  refine .node ⟨rfl, ?_, ?_, ?_, ?_, ?_, ?_, ?_, ?_, ?_⟩ ?_ ?_ ?_ ?_ <;> simp [Schema.ref]

theorem any : Schema.any.WellFormed := by
  refine .node ⟨rfl, ?_, ?_, ?_, ?_, ?_, ?_, ?_, ?_, ?_⟩ ?_ ?_ ?_ ?_ <;> simp [Schema.any]

/-- **A use site's metadata spoils nothing** — a reference is put into an `allOf` first. -/
theorem withMetadata (h : s.WellFormed) (m : Metadata) : (s.withMetadata m).WellFormed := by
  rw [Schema.withMetadata]
  split
  · exact h
  · split
    · refine .node ⟨rfl, ?_, ?_, ?_, ?_, ?_, ?_, ?_, ?_, ?_⟩ ?_ ?_ ?_ ?_ <;> simp [h]
    · next href =>
      have hk : s.kind ≠ .ref := by simpa [isRef] using href
      have hr := h.regular
      exact .node ⟨hr.typeName, hr.ascending, hr.required_nodup, hr.required_subset, hr.object,
        hr.items, hr.members, hr.refName, fun he => absurd he hk, hr.enumValues⟩
        h.properties h.additional h.items h.members

end WellFormed

end Schema

end OpenApi
