import OpenApi.Proofs.Lowering.Chains
import OpenApi.Proofs.Lowering.Paths
import OpenApi.Proofs.Lowering.UseSites
import OpenApi.Proofs.Registry.Independence
import OpenApi.Proofs.Schema.Layers

/-!
# Proofs/Lowering/Layers — what a use site exposes, and under which layers

    optional (named A (optional core))
      embedded        core             under   optional, A, optional
      not embedded    reference to A   under   optional

A use site opens a chain of names and options from the outside, until it comes to a name that is
stored or to the core, and exposes that (`Descriptor.exposed`).  Each link that is opened puts a
layer of metadata on it (`Descriptor.layers`), and a field puts one of its own on top.  So a
property is what its field exposes under one layer (`StructureSite.property_of_lower`), and a
reference stands in one `allOf` at most, through however many options and names it is exposed
(`StructureSite.reference_of_lower`).
-/

namespace OpenApi

namespace Descriptor

/-- **What a use site exposes** — the core of a chain, or a reference to the outermost name in it
that is stored. -/
def exposed (embed : Bool) : Descriptor → Descriptor
  | .optional inner => inner.exposed embed
  | .named name underlying _ _ _ inline =>
    if embed || inline then underlying.exposed embed else .reference name
  | d => d

/-- **The layers of metadata on what is exposed**, from the innermost link outwards. -/
def layers (embed : Bool) : Descriptor → List Metadata
  | .optional inner => inner.layers embed ++ [{ nullable := true }]
  | .named _ underlying description format sample inline =>
    if embed || inline then underlying.layers embed ++ [{ description, format, sample }] else []
  | _ => []

variable {embed : Bool} {path : DescriptorPath} {d : Descriptor} {s : Schema}

theorem exposed_of_isCore (h : d.IsCore) : d.exposed embed = d := by
  cases d <;> first | rfl | exact h.elim

theorem layers_of_isCore (h : d.IsCore) : d.layers embed = [] := by
  cases d <;> first | rfl | exact h.elim

/-- **A lowering is what its use site exposes, under the layers on it** — by induction along the
chain.  What is exposed is no link, so its schema is the same for every use site. -/
theorem schema_of_lower (h : (d.lower embed path).outcome = .ok s) :
    ∃ content, (d.exposed embed).schema? = some content ∧
      s = content.withLayers (d.layers embed) := by
  induction d using chainInduction generalizing path s with
  | content d hcore =>
    rw [exposed_of_isCore hcore, layers_of_isCore hcore]
    rw [lower_of_isCore hcore] at h
    refine ⟨s, ?_, rfl⟩
    rw [schema?, outcome_lower_eq_ok h []]
    rfl
  | optional inner ih =>
    obtain ⟨i, hi, rfl⟩ := run_optional.mp (Journal.run_of_outcome h)
    obtain ⟨content, hcontent, rfl⟩ := ih hi.outcome
    exact ⟨content, hcontent, (content.withLayers_concat _ _).symm⟩
  | named name underlying description format sample inline ih =>
    obtain ⟨defs, i, t, hi, rfl, hstored⟩ := run_named.mp (Journal.run_of_outcome h)
    obtain ⟨hembed, -, rfl⟩ | ⟨hembed, -, rfl⟩ := hstored
    · obtain ⟨content, hcontent, rfl⟩ := ih hi.outcome
      rw [exposed, layers, if_pos hembed, if_pos hembed]
      exact ⟨content, hcontent, (content.withLayers_concat _ _).symm⟩
    · rw [exposed, layers, hembed, if_neg Bool.false_ne_true, if_neg Bool.false_ne_true]
      exact ⟨Schema.ref name, rfl, rfl⟩

end Descriptor

/-! ## Properties -/

/-- What a field exposes of its type, in a structure that embeds named types or not. -/
def Field.exposed (embed : Bool) (f : Field Descriptor) : Descriptor :=
  f.type.exposed (embed || f.inline)

/-- The layers on what a field exposes; its own one is the outermost. -/
def Field.layers (embed : Bool) (f : Field Descriptor) : List Metadata :=
  f.type.layers (embed || f.inline) ++ [f.metadata]

namespace StructureSite

variable {site : StructureSite} {path : DescriptorPath} {fields : List (Field Descriptor)}
  {f : Field Descriptor} {s : Schema}

/-- **A property is what its field exposes, under one layer** — wherever the fields stand. -/
theorem property_of_lower (h : (site.lower path fields).outcome = .ok s) (hf : f ∈ fields)
    (live : f.skip = false) :
    ∃ content, (f.exposed site.embeds).schema? = some content ∧
      Table.get? f.name s.properties =
        some (content.withMetadata (Metadata.stack (f.layers site.embeds))) := by
  obtain ⟨description, p, hlower⟩ := site.exists_lower_eq path
  rw [hlower] at h
  obtain ⟨q, hq, rfl⟩ := Journal.run_bind_pure.mp (Journal.run_of_outcome h)
  obtain ⟨i, hi, hproperty⟩ := Descriptor.property_of_lowerFields hq f hf live
  obtain ⟨content, hcontent, rfl⟩ := Descriptor.schema_of_lower hi
  refine ⟨content, hcontent, (Descriptor.get?_of_lowerFields hq hproperty).trans ?_⟩
  rw [← Schema.withLayers_concat, Schema.withLayers_eq]
  rfl

/-- **A reference is wrapped once at most** — through however many options and names a field exposes
it. -/
theorem reference_of_lower (h : (site.lower path fields).outcome = .ok s) (hf : f ∈ fields)
    (live : f.skip = false) {name : String} (hexposed : f.exposed site.embeds = .reference name) :
    Table.get? f.name s.properties = some (
      if ∀ m ∈ f.layers site.embeds, m = {} then Schema.ref name
      else
        { kind := .composite .allOf, members := [Schema.ref name],
          metadata := Metadata.stack (f.layers site.embeds) }) := by
  obtain ⟨content, hcontent, hproperty⟩ := property_of_lower h hf live
  rw [hexposed] at hcontent
  obtain rfl : Schema.ref name = content := Option.some.inj hcontent
  rw [hproperty, ← Schema.withLayers_eq, Schema.withLayers_of_ref rfl]

-- What a stored name says of its type is stored with it, and is no layer on the reference.
example :
    Field.layers false
        { name := "owner", type := .optional (.named "User" .any (some "A user.") none none false),
          metadata := { description := some "The owner." } } =
      [{ nullable := true }, { description := some "The owner." }] := rfl

end StructureSite

end OpenApi
