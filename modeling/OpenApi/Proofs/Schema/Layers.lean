import OpenApi.Proofs.Schema.Targets

/-!
# Proofs/Schema/Layers — metadata, layer upon layer

    s ──m₁──▸ · ──m₂──▸ · … ──mₙ──▸ t
    ╰─────── stack [m₁, …, mₙ] ─────▸ t

The names, the options and the use site around a type each put a layer of metadata on its schema.
All of them together are one layer (`withLayers_eq`), and one layer touches nothing but metadata: a
reference stays as it is inside an `allOf`, of which there is one for all layers, and any other
schema keeps all that it says beside its metadata.  Neither refers to other names than before
(`references_withMetadata`).
-/

namespace OpenApi

namespace Metadata

/-- **Layers of metadata as one** — listed from the innermost one outwards. -/
def stack (layers : List Metadata) : Metadata :=
  layers.foldr (fun lower upper => upper.over lower) {}

@[simp] theorem stack_nil : stack [] = {} := rfl

@[simp] theorem stack_cons (m : Metadata) (layers : List Metadata) :
    stack (m :: layers) = (stack layers).over m := rfl

/-- Field by field: a text of the upper layer where it gives one, else that of the lower one. -/
theorem over_eq (upper lower : Metadata) :
    upper.over lower =
      { description := upper.description.or lower.description
        format := upper.format.or lower.format
        sample := upper.sample.or lower.sample
        nullable := upper.nullable || lower.nullable } := by
  simp only [Metadata.over, Option.orElse_eq_orElse, Option.orElse_eq_or, Bool.or_comm]

theorem over_eq_empty_iff {upper lower : Metadata} :
    upper.over lower = {} ↔ upper = {} ∧ lower = {} := by
  by_cases hlower : lower = {}
  · rw [hlower, over_empty, and_iff_left rfl]
  · exact ⟨fun h => absurd h (upper.over_ne_empty hlower), fun h => absurd h.2 hlower⟩

/-- **Layers say nothing if none of them does.** -/
theorem stack_eq_empty_iff {layers : List Metadata} : stack layers = {} ↔ ∀ m ∈ layers, m = {} := by
  induction layers with
  | nil => simp
  | cons m layers ih => rw [stack_cons, over_eq_empty_iff, ih, List.forall_mem_cons, and_comm]

end Metadata

namespace Schema

/-- **The schema under some layers of metadata** — put on from the innermost one outwards. -/
def withLayers (s : Schema) (layers : List Metadata) : Schema := layers.foldl withMetadata s

@[simp] theorem withLayers_nil (s : Schema) : s.withLayers [] = s := rfl

@[simp] theorem withLayers_cons (s : Schema) (m : Metadata) (layers : List Metadata) :
    s.withLayers (m :: layers) = (s.withMetadata m).withLayers layers := rfl

theorem withLayers_concat (s : Schema) (layers : List Metadata) (m : Metadata) :
    s.withLayers (layers ++ [m]) = (s.withLayers layers).withMetadata m := List.foldl_append

/-- **Layers are worth one layer** — by induction from the innermost one, which all others are put
on top of. -/
theorem withLayers_eq (s : Schema) (layers : List Metadata) :
    s.withLayers layers = s.withMetadata (Metadata.stack layers) := by
  induction layers generalizing s with
  | nil => rfl
  | cons m layers ih => rw [withLayers_cons, ih, withMetadata_withMetadata, Metadata.stack_cons]

/-- **Metadata refers to nothing** — the names are the same, in the same order. -/
theorem references_withMetadata (s : Schema) (m : Metadata) :
    (s.withMetadata m).references = s.references := by
  cases href : s.isRef with
  | true =>
    by_cases hm : m = {}
    · rw [hm, withMetadata_empty]
    · rw [withMetadata_of_ref href hm]
      simp [references, propertyReferences, optionReferences, memberReferences]
  | false =>
    rw [withMetadata_of_ne_ref href]
    cases s
    rfl

/-- **A reference is wrapped once at most** — it stays bare if no layer says anything. -/
theorem withLayers_of_ref {s : Schema} (h : s.isRef = true) (layers : List Metadata) :
    s.withLayers layers =
      if ∀ m ∈ layers, m = {} then s
      else { kind := .composite .allOf, members := [s], metadata := Metadata.stack layers } := by
  rw [withLayers_eq]
  split
  · next hempty => rw [Metadata.stack_eq_empty_iff.mpr hempty, withMetadata_empty]
  · next hsays => exact withMetadata_of_ref h (mt Metadata.stack_eq_empty_iff.mp hsays)

/-- **Layers of metadata touch nothing but metadata.**  Two of them are one layer: of each text the
upper one has the say where it gives the text, and null is admitted if either admits it.  Under any
number of layers a schema refers to the same names, in the same order.  A schema that is no
reference differs in its metadata only; a reference stands, as it is, in one `allOf`, which is left
out where no layer says anything. -/
theorem withLayers_frame (s : Schema) (m upper : Metadata) (layers : List Metadata) :
    (s.withMetadata m).withMetadata upper =
        s.withMetadata
          { description := upper.description.or m.description
            format := upper.format.or m.format
            sample := upper.sample.or m.sample
            nullable := upper.nullable || m.nullable } ∧
      (s.withLayers layers).references = s.references ∧
      (s.isRef = false →
        s.withLayers layers = { s with metadata := (Metadata.stack layers).over s.metadata }) ∧
      (s.isRef = true →
        s.withLayers layers =
          if ∀ m ∈ layers, m = {} then s
          else
            { kind := .composite .allOf, members := [s], metadata := Metadata.stack layers }) := by
  refine ⟨?_, ?_, fun href => ?_, fun href => withLayers_of_ref href layers⟩
  · rw [withMetadata_withMetadata, Metadata.over_eq]
  · rw [withLayers_eq, references_withMetadata]
  · rw [withLayers_eq, withMetadata_of_ne_ref href]

/-- What three places say of a user, the middle one of them nothing. -/
def ownerLayers : List Metadata :=
  [{ description := some "A user.", nullable := true }, {}, { description := some "The owner." }]

/-- The layers share an `allOf` around a reference, and change only the metadata of a text. -/
theorem withLayers_frame_owner :
    (ref "User").isRef = true ∧ (primitive "string" (some "uuid")).isRef = false ∧
      (ref "User").withLayers ownerLayers =
        { kind := .composite .allOf, members := [ref "User"],
          metadata := { description := some "The owner.", nullable := true } } ∧
      (primitive "string" (some "uuid")).withLayers ownerLayers =
        { kind := .primitive, typeName := some "string",
          metadata :=
            { description := some "The owner.", format := some "uuid", nullable := true } } := by
  obtain ⟨-, -, -, hreference⟩ := withLayers_frame (ref "User") {} {} ownerLayers
  obtain ⟨-, -, htext, -⟩ := withLayers_frame (primitive "string" (some "uuid")) {} {} ownerLayers
  have hsays : ¬ ∀ m ∈ ownerLayers, m = {} := by decide
  refine ⟨rfl, rfl, ?_, htext rfl⟩
  rw [hreference rfl, if_neg hsays]
  rfl

end Schema

end OpenApi
