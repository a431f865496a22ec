import OpenApi.Proofs.Lowering.Parts
import OpenApi.Proofs.Trees

/-!
# Proofs/Descriptor/Pruned — a descriptor without its skipped parts

    object                      object
      ├─ id                       ├─ id
      ├─ owner (skipped)   ⟶      ╰─ state : enum
      ╰─ state : enum                   ╰─ Open
           ├─ Open
           ╰─ Lost (skipped)

Pruning takes the skipped fields and variants out of a descriptor, wherever they stand, and leaves
the rest as it is: nothing that is skipped is left (`skipFree_pruned`), and a descriptor without
skipped parts stays the same (`SkipFree.pruned_eq`).
-/

namespace OpenApi.Descriptor

/-! ## Pruning -/

mutual

/-- **The descriptor without its skipped fields and variants**, at every depth. -/
def pruned : Descriptor → Descriptor
  | .primitive kind format => .primitive kind format
  | .array element => .array element.pruned
  | .optional inner => .optional inner.pruned
  | .map value => .map value.pruned
  | .tuple items => .tuple (prunedItems items)
  | .any => .any
  | .composite mode members => .composite mode (prunedMembers members)
  | .object name fields => .object name (prunedFields fields)
  | .enum name tagging variants description =>
    .enum name tagging (prunedVariants variants) description
  | .named name underlying description format sample inline =>
    .named name underlying.pruned description format sample inline
  | .reference name => .reference name

/-- The items of a tuple, pruned. -/
def prunedItems : List (TupleItem Descriptor) → List (TupleItem Descriptor)
  | [] => []
  | ⟨type, description⟩ :: items => ⟨type.pruned, description⟩ :: prunedItems items

/-- The members of a composition, pruned. -/
def prunedMembers : List Descriptor → List Descriptor
  | [] => []
  | member :: members => member.pruned :: prunedMembers members

/-- The serialized fields, pruned. -/
def prunedFields : List (Field Descriptor) → List (Field Descriptor)
  | [] => []
  | ⟨name, type, metadata, forceOptional, skip, inline⟩ :: fields =>
    if skip then prunedFields fields
    else ⟨name, type.pruned, metadata, forceOptional, skip, inline⟩ :: prunedFields fields

/-- The serialized variants, pruned. -/
def prunedVariants : List (Variant Descriptor) → List (Variant Descriptor)
  | [] => []
  | ⟨name, style, items, fields, description, skip, inline⟩ :: variants =>
    if skip then prunedVariants variants
    else ⟨name, style, prunedItems items, prunedFields fields, description, skip, inline⟩ ::
      prunedVariants variants

end

/-- One variant, its items and fields pruned. -/
def prunedVariant (x : Variant Descriptor) : Variant Descriptor :=
  { x with items := prunedItems x.items, fields := prunedFields x.fields }

@[simp] theorem name_prunedVariant (x : Variant Descriptor) : (prunedVariant x).name = x.name := rfl

/-! ## Lists of parts -/

theorem prunedItems_eq_map (items : List (TupleItem Descriptor)) :
    prunedItems items = items.map fun i => { i with type := i.type.pruned } := by
  induction items with
  | nil => rfl
  | cons i items ih => rw [prunedItems, ih, List.map_cons]

theorem prunedMembers_eq_map (members : List Descriptor) :
    prunedMembers members = members.map pruned := by
  induction members with
  | nil => rfl
  | cons m members ih => rw [prunedMembers, ih, List.map_cons]

theorem prunedFields_eq_map (fields : List (Field Descriptor)) :
    prunedFields fields =
      (fields.filter (!·.skip)).map fun f => { f with type := f.type.pruned } := by
  induction fields with
  | nil => rfl
  | cons f fields ih =>
    obtain ⟨name, type, metadata, forceOptional, skip, inline⟩ := f
    rw [prunedFields, ih]
    cases skip <;> rfl

theorem prunedVariants_eq_map (variants : List (Variant Descriptor)) :
    prunedVariants variants = (Variant.serialized variants).map prunedVariant := by
  induction variants with
  | nil => rfl
  | cons x variants ih =>
    obtain ⟨name, style, items, fields, description, skip, inline⟩ := x
    rw [prunedVariants, ih, Variant.serialized_cons]
    cases skip <;> rfl

/-- Pruned variants are serialized, all of them. -/
theorem serialized_prunedVariants (variants : List (Variant Descriptor)) :
    Variant.serialized (prunedVariants variants) =
      (Variant.serialized variants).map prunedVariant := by
  rw [prunedVariants_eq_map, Variant.serialized, List.filter_eq_self]
  intro x hx
  obtain ⟨y, hy, rfl⟩ := List.mem_map.mp hx
  exact (List.mem_filter.mp hy).2

/-! ## Descriptors without skipped parts -/

/-- **Nothing in the descriptor is skipped** — neither a field nor a variant, at any depth. -/
inductive SkipFree : Descriptor → Prop
  | primitive (kind : PrimitiveKind) (format : Option String) : SkipFree (.primitive kind format)
  | array {element : Descriptor} (element_free : element.SkipFree) : SkipFree (.array element)
  | optional {inner : Descriptor} (inner_free : inner.SkipFree) : SkipFree (.optional inner)
  | map {value : Descriptor} (value_free : value.SkipFree) : SkipFree (.map value)
  | tuple {items : List (TupleItem Descriptor)} (items_free : ∀ i ∈ items, SkipFree i.type) :
    SkipFree (.tuple items)
  | any : SkipFree .any
  | composite (mode : Composition) {members : List Descriptor}
    (members_free : ∀ m ∈ members, SkipFree m) : SkipFree (.composite mode members)
  | object (name : Option String) {fields : List (Field Descriptor)}
    (live : ∀ f ∈ fields, f.skip = false) (fields_free : ∀ f ∈ fields, SkipFree f.type) :
    SkipFree (.object name fields)
  | enum (name : String) (tagging : Tagging) {variants : List (Variant Descriptor)}
    (description : Option String) (live : ∀ x ∈ variants, x.skip = false)
    (items_free : ∀ x ∈ variants, ∀ i ∈ x.items, SkipFree i.type)
    (fields_live : ∀ x ∈ variants, ∀ f ∈ x.fields, f.skip = false)
    (fields_free : ∀ x ∈ variants, ∀ f ∈ x.fields, SkipFree f.type) :
    SkipFree (.enum name tagging variants description)
  | named (name : String) {underlying : Descriptor} (description format sample : Option String)
    (inline : Bool) (underlying_free : underlying.SkipFree) :
    SkipFree (.named name underlying description format sample inline)
  | reference (name : String) : SkipFree (.reference name)

theorem skipFree_prunedItems {items : List (TupleItem Descriptor)}
    (h : ∀ i ∈ items, i.type.pruned.SkipFree) : ∀ i ∈ prunedItems items, i.type.SkipFree := by
  rw [prunedItems_eq_map, List.forall_mem_map]
  exact h

theorem live_prunedFields (fields : List (Field Descriptor)) :
    ∀ f ∈ prunedFields fields, f.skip = false := by
  rw [prunedFields_eq_map, List.forall_mem_map]
  intro f hf
  simpa using (List.mem_filter.mp hf).2

theorem skipFree_prunedFields {fields : List (Field Descriptor)}
    (h : ∀ f ∈ fields, f.type.pruned.SkipFree) : ∀ f ∈ prunedFields fields, f.type.SkipFree := by
  rw [prunedFields_eq_map, List.forall_mem_map]
  exact fun f hf => h f (List.mem_filter.mp hf).1

/-- **Pruning leaves nothing that is skipped.** -/
theorem skipFree_pruned (d : Descriptor) : d.pruned.SkipFree := by
  induction d using Descriptor.tree with
  | primitive kind format => exact .primitive kind format
  | array element ih => exact .array ih
  | optional inner ih => exact .optional ih
  | map value ih => exact .map ih
  | tuple items ih => exact .tuple (skipFree_prunedItems ih)
  | any => exact .any
  | composite mode members ih =>
    refine .composite mode ?_
    rw [prunedMembers_eq_map, List.forall_mem_map]
    exact ih
  | object name fields ih =>
    exact .object name (live_prunedFields fields) (skipFree_prunedFields ih)
  | enum name tagging variants description ih =>
    have hmem : ∀ x ∈ prunedVariants variants, ∃ y ∈ variants, y.skip = false ∧
        prunedVariant y = x := by
      rw [prunedVariants_eq_map]
      intro x hx
      obtain ⟨y, hy, rfl⟩ := List.mem_map.mp hx
      obtain ⟨hy, live⟩ := List.mem_filter.mp hy
      exact ⟨y, hy, by simpa using live, rfl⟩
    refine .enum name tagging description ?_ ?_ ?_ ?_ <;> intro x hx <;>
      obtain ⟨y, hy, live, rfl⟩ := hmem x hx
    · exact live
    · exact skipFree_prunedItems (ih y hy).1
    · exact live_prunedFields y.fields
    · exact skipFree_prunedFields (ih y hy).2
  | named name underlying description format sample inline ih =>
    exact .named name description format sample inline ih
  | reference name => exact .reference name

theorem prunedItems_eq_self {items : List (TupleItem Descriptor)}
    (h : ∀ i ∈ items, i.type.pruned = i.type) : prunedItems items = items := by
  rw [prunedItems_eq_map]
  refine (List.map_congr_left fun i hi => ?_).trans (List.map_id _)
  rw [h i hi]
  rfl

theorem prunedFields_eq_self {fields : List (Field Descriptor)}
    (live : ∀ f ∈ fields, f.skip = false) (h : ∀ f ∈ fields, f.type.pruned = f.type) :
    prunedFields fields = fields := by
  have hall : fields.filter (!·.skip) = fields :=
    List.filter_eq_self.mpr fun f hf => by rw [live f hf]; rfl
  rw [prunedFields_eq_map, hall]
  refine (List.map_congr_left fun f hf => ?_).trans (List.map_id _)
  rw [h f hf]
  rfl

/-- **Pruning takes nothing else away.** -/
theorem SkipFree.pruned_eq {d : Descriptor} (h : d.SkipFree) : d.pruned = d := by
  induction h with
  | primitive kind format => rfl
  | array _ ih => rw [pruned, ih]
  | optional _ ih => rw [pruned, ih]
  | map _ ih => rw [pruned, ih]
  | tuple _ ih => rw [pruned, prunedItems_eq_self ih]
  | any => rfl
  | composite mode _ ih =>
    rw [pruned, prunedMembers_eq_map, (List.map_congr_left ih).trans (List.map_id _)]
  | object name live _ ih => rw [pruned, prunedFields_eq_self live ih]
  | @enum name tagging variants description live _ fields_live _ items_ih fields_ih =>
    have hall : Variant.serialized variants = variants :=
      List.filter_eq_self.mpr fun x hx => by rw [live x hx]; rfl
    have hsame : ∀ x ∈ variants, prunedVariant x = id x := by
      intro x hx
      rw [prunedVariant, prunedItems_eq_self (items_ih x hx),
        prunedFields_eq_self (fields_live x hx) (fields_ih x hx)]
      rfl
    rw [pruned, prunedVariants_eq_map, hall, (List.map_congr_left hsame).trans (List.map_id _)]
  | named name description format sample inline _ ih => rw [pruned, ih]
  | reference name => rfl

end OpenApi.Descriptor
