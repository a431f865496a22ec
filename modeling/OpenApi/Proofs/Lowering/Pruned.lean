import OpenApi.Proofs.Descriptor.Pruned
import OpenApi.Registry

/-!
# Proofs/Lowering/Pruned — skipped parts leave no trace

    d ──pruned──▸ d'
    │             │
    ╰──lower──▸ schema or failure, definitions ◂──lower──╯

A descriptor and the same one without its skipped parts are lowered alike, to the letter: the same
schema or the same failure at the same path, and the same definitions in the same order
(`lower_pruned`).  So a skipped part has no say in anything that a lowering checks or stores.
-/

namespace OpenApi

namespace Descriptor

/-- **The skipped parts of a descriptor leave no trace**, wherever it stands. -/
def Traceless (d : Descriptor) : Prop :=
  ∀ (embed : Bool) (path : DescriptorPath), d.pruned.lower embed path = d.lower embed path

variable {embed : Bool} {path : DescriptorPath}

/-! ## Lists of parts -/

theorem lowerItems_pruned {items : List (TupleItem Descriptor)} (h : ∀ i ∈ items, i.type.Traceless)
    (index : Nat) :
    lowerItems embed path index (prunedItems items) = lowerItems embed path index items := by
  induction items generalizing index with
  | nil => rfl
  | cons i items ih =>
    obtain ⟨hi, hitems⟩ := List.forall_mem_cons.mp h
    rw [prunedItems, lowerItems, lowerItems, hi, ih hitems]

theorem lowerMembers_pruned {members : List Descriptor} (h : ∀ m ∈ members, m.Traceless)
    (mode : Composition) (index : Nat) :
    lowerMembers path mode index (prunedMembers members) =
      lowerMembers path mode index members := by
  induction members generalizing index with
  | nil => rfl
  | cons m members ih =>
    obtain ⟨hm, hmembers⟩ := List.forall_mem_cons.mp h
    rw [prunedMembers, lowerMembers, lowerMembers, hm, ih hmembers]

/-- A skipped field takes no name: those seen before a field are the same. -/
theorem lowerFields_pruned {fields : List (Field Descriptor)} (h : ∀ f ∈ fields, f.type.Traceless)
    (seen : List String) :
    lowerFields embed path seen (prunedFields fields) = lowerFields embed path seen fields := by
  induction fields generalizing seen with
  | nil => rfl
  | cons f fields ih =>
    obtain ⟨name, type, metadata, forceOptional, skip, inline⟩ := f
    obtain ⟨hf, hfields⟩ := List.forall_mem_cons.mp h
    have htype : type.pruned.lower (embed || inline) (path.enter name) =
        type.lower (embed || inline) (path.enter name) := hf _ _
    rw [prunedFields]
    cases skip with
    | true =>
      rw [if_pos rfl, lowerFields, if_pos rfl]
      exact ih hfields seen
    | false =>
      rw [if_neg Bool.false_ne_true, lowerFields, lowerFields, if_neg Bool.false_ne_true,
        if_neg Bool.false_ne_true, htype, ih hfields (name :: seen)]

/-! ## Payloads -/

/-- The items and the fields of a variant leave no trace of their skipped parts. -/
def TracelessIn (x : Variant Descriptor) : Prop :=
  (∀ i ∈ x.items, i.type.Traceless) ∧ ∀ f ∈ x.fields, f.type.Traceless

theorem lowerPayload_pruned {x : Variant Descriptor} (h : TracelessIn x) :
    lowerPayload path (prunedVariant x) = lowerPayload path x := by
  obtain ⟨hitems, hfields⟩ := h
  obtain ⟨name, style, items, fields, description, skip, inline⟩ := x
  cases style with
  | struct =>
    have hstruct : lowerFields inline path [] (prunedFields fields) =
        lowerFields inline path [] fields := lowerFields_pruned hfields []
    rw [prunedVariant, lowerPayload, lowerPayload, hstruct]
  | newtype =>
    obtain _ | ⟨i, items⟩ := items
    · rfl
    · have hi : i.type.Traceless := hitems i List.mem_cons_self
      simp only [prunedVariant, prunedItems, lowerPayload, hi inline path]
  | unit | tuple =>
    obtain _ | ⟨i, _ | ⟨i', items⟩⟩ := items
    · rfl
    · have hi : i.type.Traceless := hitems i List.mem_cons_self
      simp only [prunedVariant, prunedItems, lowerPayload, hi inline path]
    · exact congrArg (Lowering.tuple path description true) (lowerItems_pruned hitems 0)

theorem lowerUntagged_pruned {x : Variant Descriptor} (h : TracelessIn x) :
    lowerUntagged path (prunedVariant x) = lowerUntagged path x := by
  obtain ⟨hitems, hfields⟩ := h
  obtain ⟨name, style, items, fields, description, skip, inline⟩ := x
  cases style with
  | unit => rfl
  | struct =>
    have hstruct : lowerFields inline path [] (prunedFields fields) =
        lowerFields inline path [] fields := lowerFields_pruned hfields []
    rw [prunedVariant, lowerUntagged, lowerUntagged, hstruct]
  | newtype =>
    obtain _ | ⟨i, items⟩ := items
    · rfl
    · have hi : i.type.Traceless := hitems i List.mem_cons_self
      simp only [prunedVariant, prunedItems, lowerUntagged, hi true path]
  | tuple =>
    obtain _ | ⟨i, _ | ⟨i', items⟩⟩ := items
    · rfl
    · have hi : i.type.Traceless := hitems i List.mem_cons_self
      simp only [prunedVariant, prunedItems, lowerUntagged, hi true path]
    · rfl

/-! ## Sum types -/

section Enum

variable {variants : List (Variant Descriptor)}

/-- What is lowered of each serialized variant is lowered of the pruned ones. -/
theorem sequence_prunedVariants {α : Type} {f : Variant Descriptor → Lowering α}
    {vs : List (Variant Descriptor)} (h : ∀ x ∈ vs, f (prunedVariant x) = f x) :
    Journal.sequence ((vs.map prunedVariant).map f) = Journal.sequence (vs.map f) := by
  rw [List.map_map]
  exact congrArg Journal.sequence (List.map_congr_left h)

/-- The check of the variants looks at the names of the serialized ones. -/
theorem check_pruned (enum : String) :
    Variant.check enum (prunedVariants variants) path = Variant.check enum variants path := by
  have hnames : ((Variant.serialized variants).map prunedVariant).map (·.name) =
      (Variant.serialized variants).map (·.name) := List.map_map
  rw [Variant.check, Variant.check, serialized_prunedVariants, hnames, List.isEmpty_map]

variable (h : ∀ x ∈ Variant.serialized variants, TracelessIn x)

include h

theorem lowerPayloads_pruned :
    lowerPayloads path (prunedVariants variants) = lowerPayloads path variants := by
  have hbearing : ((Variant.serialized variants).map prunedVariant).filter (·.hasPayload) =
      ((Variant.serialized variants).filter (·.hasPayload)).map prunedVariant := List.filter_map
  rw [lowerPayloads_eq_sequence, lowerPayloads_eq_sequence, serialized_prunedVariants, hbearing]
  exact sequence_prunedVariants fun x hx => lowerPayload_pruned (h x (List.mem_filter.mp hx).1)

theorem lowerExternal_pruned :
    lowerExternal path (prunedVariants variants) = lowerExternal path variants := by
  rw [lowerExternal_eq_sequence, lowerExternal_eq_sequence, serialized_prunedVariants]
  refine sequence_prunedVariants fun x hx => ?_
  rw [lowerBranch, lowerBranch, name_prunedVariant, lowerPayload_pruned (h x hx)]
  rfl

theorem lowerInternal_pruned (enum tagKey : String) :
    lowerInternal enum tagKey path (prunedVariants variants) =
      lowerInternal enum tagKey path variants := by
  rw [lowerInternal_eq_sequence, lowerInternal_eq_sequence, serialized_prunedVariants]
  refine sequence_prunedVariants fun x hx => ?_
  rw [lowerTagged, lowerTagged, name_prunedVariant, lowerUntagged_pruned (h x hx)]
  rfl

/-- **No tagging looks at a skipped variant**, nor asks it whether there is a payload. -/
theorem traceless_enum (name : String) (tagging : Tagging) (description : Option String) :
    (enum name tagging variants description).Traceless := by
  intro embed path
  have hany : ((Variant.serialized variants).map prunedVariant).any (·.hasPayload) =
      (Variant.serialized variants).any (·.hasPayload) := List.any_map
  have hnames : ((Variant.serialized variants).map prunedVariant).map (·.name) =
      (Variant.serialized variants).map (·.name) := List.map_map
  rw [pruned, lower, lower, check_pruned]
  dsimp only
  rw [serialized_prunedVariants, hany, hnames]
  cases tagging with
  | external => simp only [lowerExternal_pruned h]
  | internal tagKey => simp only [lowerInternal_pruned h]
  | adjacent tagKey contentKey => simp only [lowerPayloads_pruned h]
  | untagged =>
    have hbare : ((Variant.serialized variants).map prunedVariant).find? (!·.hasPayload) =
        ((Variant.serialized variants).find? (!·.hasPayload)).map prunedVariant := List.find?_map
    simp only [hbare, lowerPayloads_pruned h]
    cases (Variant.serialized variants).find? (!·.hasPayload) <;> rfl

end Enum

/-! ## Descriptors -/

/-- **A descriptor is lowered as if its skipped parts were not there.** -/
theorem lower_pruned (d : Descriptor) : d.Traceless := by
  induction d using Descriptor.tree with
  | primitive kind format => exact fun _ _ => rfl
  | array element ih =>
    intro embed path
    rw [pruned, lower, lower, ih]
  | optional inner ih =>
    intro embed path
    rw [pruned, lower, lower, ih]
  | map value ih =>
    intro embed path
    rw [pruned, lower, lower, ih]
  | tuple items ih =>
    intro embed path
    have hempty : (prunedItems items).isEmpty = items.isEmpty := by
      rw [prunedItems_eq_map, List.isEmpty_map]
    rw [pruned, lower, lower, lowerItems_pruned ih, hempty]
  | any => exact fun _ _ => rfl
  | composite mode members ih =>
    intro embed path
    have hempty : (prunedMembers members).isEmpty = members.isEmpty := by
      rw [prunedMembers_eq_map, List.isEmpty_map]
    rw [pruned, lower, lower, lowerMembers_pruned ih, hempty]
  | object name fields ih =>
    intro embed path
    rw [pruned, lower, lower, lowerFields_pruned ih]
  | enum name tagging variants description ih =>
    exact traceless_enum (fun x hx => ih x (List.mem_filter.mp hx).1) name tagging description
  | named name underlying description format sample inline ih =>
    intro embed path
    rw [pruned, lower, lower, ih]
  | reference name => exact fun _ _ => rfl

end Descriptor

/-- **Skipped parts leave no trace.**  Without its skipped fields and variants, of which none is
left at any depth, a descriptor has the same outcome on every registry: the same schema, or the same
failure at the same path, and the same entries in the same order, whether the use site embeds named
types or not. -/
theorem Registry.carryOut_pruned (d : Descriptor) :
    d.pruned.SkipFree ∧ ∀ (r : Registry) (embed : Bool) (path : DescriptorPath),
      r.carryOut (d.pruned.lower embed path) = r.carryOut (d.lower embed path) := by
  refine ⟨d.skipFree_pruned, fun r embed path => ?_⟩
  rw [d.lower_pruned]

end OpenApi
