import OpenApi.Descriptor.Basic

/-!
# Proofs/Descriptor/Walk — which named types a descriptor stores

    named A                    (true)   reached by embedding
      ╰─ optional              (true)
           ╰─ object           (true)
                ├─ named B     (false)
                ╰─ named C     (true)   the field is marked inline

A descriptor is made of others, in the order of declaration, and some of these uses embed a named
type (`Descriptor.uses`): those of fields, items and variants that are marked inline, and the single
payload of an internally tagged variant.  Embedding goes on through `named` and `optional` and ends
at anything else.  The walk lists all uses, each behind those below it; the named types in it that
are not embedded, and do not ask for it themselves, are stored (`Descriptor.storedTypes`).
-/

namespace OpenApi

/-- A descriptor at a place that embeds named types or not. -/
abbrev Use : Type := Bool × Descriptor

/-- Whether a single payload is embedded whatever its variant says. -/
def Tagging.embedsSingle : Tagging → Bool
  | .internal _ => true
  | _ => false

/-- The items of a payload that is not a structure; a `newtype` has one. -/
def Variant.payloadItems {τ : Type} (v : Variant τ) : List (TupleItem τ) :=
  match v.style with
  | .newtype => v.items.take 1
  | .tuple => v.items
  | .unit | .struct => []

namespace Descriptor

/-! ## Uses -/

/-- The fields that are not skipped. -/
def fieldUses (inline : Bool) (fields : List (Field Descriptor)) : List Use :=
  (fields.filter (!·.skip)).map fun f => (inline || f.inline, f.type)

theorem fieldUses_cons (inline : Bool) (f : Field Descriptor) (fields : List (Field Descriptor)) :
    fieldUses inline (f :: fields) =
      if f.skip then fieldUses inline fields
      else (inline || f.inline, f.type) :: fieldUses inline fields := by
  rw [fieldUses, List.filter_cons]
  cases f.skip <;> rfl

/-- The items of a tuple. -/
def itemUses (embed : Bool) (items : List (TupleItem Descriptor)) : List Use :=
  items.map fun i => (embed, i.type)

/-- The payload of a variant. -/
def variantUses (tagging : Tagging) (v : Variant Descriptor) : List Use :=
  if v.style = .struct then fieldUses v.inline v.fields
  else
    itemUses (v.inline || (tagging.embedsSingle && decide (v.payloadItems.length = 1)))
      v.payloadItems

section Payloads

variable {tagging : Tagging} {v : Variant Descriptor}

theorem variantUses_struct (h : v.style = .struct) :
    variantUses tagging v = fieldUses v.inline v.fields := if_pos h

/-- A single payload is embedded for the sake of the variant or of the tagging. -/
theorem variantUses_single (h : v.style ≠ .struct) {i : TupleItem Descriptor}
    (hi : v.payloadItems = [i]) :
    variantUses tagging v = [(v.inline || tagging.embedsSingle, i.type)] := by
  rw [variantUses, if_neg h, hi]
  simp [itemUses]

/-- Several payloads, or none, are embedded for the sake of the variant only. -/
theorem variantUses_of_length_ne (h : v.style ≠ .struct) (hlength : v.payloadItems.length ≠ 1) :
    variantUses tagging v = itemUses v.inline v.payloadItems := by
  rw [variantUses, if_neg h, decide_eq_false hlength, Bool.and_false, Bool.or_false]

/-- A bare name uses nothing. -/
theorem variantUses_of_bare (h : v.hasPayload = false) : variantUses tagging v = [] := by
  have hunit : v.style = .unit := by simpa [Variant.hasPayload] using h
  rw [variantUses, if_neg (by simp [hunit]), Variant.payloadItems, hunit]
  rfl

end Payloads

/-- **What a descriptor is made of**, in the order of declaration — nothing, if it is an enum of
bare names. -/
def uses (embed : Bool) : Descriptor → List Use
  | .primitive _ _ | .any | .reference _ => []
  | .array element => [(false, element)]
  | .optional inner => [(embed, inner)]
  | .map value => [(false, value)]
  | .tuple items => itemUses false items
  | .composite _ members => members.map fun m => (false, m)
  | .object _ fields => fieldUses false fields
  | .enum _ tagging variants _ =>
    (Variant.serialized variants).flatMap (variantUses tagging)
  | .named _ underlying _ _ _ _ => [(embed, underlying)]

section Size

variable {c : Use} {embed : Bool}

theorem sizeOf_fieldUses {fields : List (Field Descriptor)} (h : c ∈ fieldUses embed fields) :
    sizeOf c.2 < sizeOf fields := by
  obtain ⟨f, hf, rfl⟩ := List.mem_map.mp h
  have hlt := List.sizeOf_lt_of_mem (List.mem_filter.mp hf).1
  obtain ⟨name, type, metadata, forceOptional, skip, inline⟩ := f
  simp only [Field.mk.sizeOf_spec] at hlt ⊢
  omega

theorem sizeOf_itemUses {items : List (TupleItem Descriptor)} (h : c ∈ itemUses embed items) :
    sizeOf c.2 < sizeOf items := by
  obtain ⟨i, hi, rfl⟩ := List.mem_map.mp h
  have hlt := List.sizeOf_lt_of_mem hi
  obtain ⟨type, description⟩ := i
  simp only [TupleItem.mk.sizeOf_spec] at hlt ⊢
  omega

theorem mem_items_of_mem_payloadItems {v : Variant Descriptor} {i : TupleItem Descriptor}
    (h : i ∈ v.payloadItems) : i ∈ v.items := by
  rw [Variant.payloadItems] at h
  split at h
  · exact List.mem_of_mem_take h
  · exact h
  all_goals cases h

theorem sizeOf_variantUses {tagging : Tagging} {v : Variant Descriptor}
    (h : c ∈ variantUses tagging v) : sizeOf c.2 < sizeOf v := by
  have hparts : sizeOf v.items < sizeOf v ∧ sizeOf v.fields < sizeOf v := by
    obtain ⟨name, style, items, fields, description, skip, inline⟩ := v
    simp only [Variant.mk.sizeOf_spec]
    omega
  rw [variantUses] at h
  split at h
  · exact Nat.lt_trans (sizeOf_fieldUses h) hparts.2
  · obtain ⟨i, hi, rfl⟩ := List.mem_map.mp h
    have hitem : (false, i.type) ∈ itemUses false v.items :=
      List.mem_map.mpr ⟨i, mem_items_of_mem_payloadItems hi, rfl⟩
    have hlt := sizeOf_itemUses hitem
    exact Nat.lt_trans hlt hparts.1

/-- **What a descriptor is made of is smaller.** -/
theorem sizeOf_uses {d : Descriptor} (h : c ∈ d.uses embed) :
    sizeOf c.2 < sizeOf d := by
  cases d with
  | primitive kind format => cases h
  | any => cases h
  | reference name => cases h
  | array element =>
    obtain rfl := List.mem_singleton.mp h
    simp
  | optional inner =>
    obtain rfl := List.mem_singleton.mp h
    simp
  | map value =>
    obtain rfl := List.mem_singleton.mp h
    simp
  | tuple items =>
    have := sizeOf_itemUses h
    simp only [tuple.sizeOf_spec]
    omega
  | composite mode members =>
    obtain ⟨m, hm, rfl⟩ := List.mem_map.mp h
    have := List.sizeOf_lt_of_mem hm
    simp only [composite.sizeOf_spec]
    omega
  | object name fields =>
    have := sizeOf_fieldUses h
    simp only [object.sizeOf_spec]
    omega
  | enum name tagging variants description =>
    obtain ⟨v, hv, h⟩ := List.mem_flatMap.mp h
    have hv := List.sizeOf_lt_of_mem (List.mem_filter.mp hv).1
    have := sizeOf_variantUses h
    simp only [enum.sizeOf_spec]
    omega
  | named name underlying description format sample inline =>
    obtain rfl := List.mem_singleton.mp h
    simp only [named.sizeOf_spec]
    omega

end Size

/-! ## The walk -/

/-- **All descriptors in a descriptor** — what it is made of comes before it, in the order of
declaration. -/
def walk (embed : Bool) (d : Descriptor) : List Use :=
  (d.uses embed).attach.flatMap (fun c => walk c.1.1 c.1.2) ++ [(embed, d)]
termination_by sizeOf d
decreasing_by exact sizeOf_uses c.2

theorem walk_eq (embed : Bool) (d : Descriptor) :
    d.walk embed = (d.uses embed).flatMap (fun c => c.2.walk c.1) ++ [(embed, d)] := by
  have hattach : (d.uses embed).attach.flatMap (fun c => walk c.1.1 c.1.2) =
      ((d.uses embed).attach.map (·.1)).flatMap fun c => c.2.walk c.1 := by
    rw [List.flatMap_map]
  rw [walk, hattach, List.attach_map_subtype_val]

theorem mem_walk_self (embed : Bool) (d : Descriptor) : (embed, d) ∈ d.walk embed := by
  rw [walk_eq]
  exact List.mem_append_right _ (List.mem_singleton_self _)

/-- **The walk of what is walked through is a part of the walk.** -/
theorem walk_subset {embed : Bool} {d : Descriptor} {c : Use} (hc : c ∈ d.walk embed) :
    c.2.walk c.1 ⊆ d.walk embed := by
  rw [walk_eq, List.mem_append, List.mem_flatMap, List.mem_singleton] at hc
  obtain ⟨b, hb, hc⟩ | rfl := hc
  · intro u hu
    rw [walk_eq, List.mem_append, List.mem_flatMap]
    exact Or.inl ⟨b, hb, walk_subset hc hu⟩
  · exact List.Subset.refl _
termination_by sizeOf d
decreasing_by exact sizeOf_uses hb

/-! ## Stored types -/

end Descriptor

/-- A named type that is stored, with what it says about its underlying type. -/
structure StoredType where
  name : String
  underlying : Descriptor
  metadata : Metadata

/-- **A use stores its descriptor** if that is a named type, is not embedded and does not ask for
it. -/
def Use.stored? : Use → Option StoredType
  | (false, .named name underlying description format sample false) =>
    some ⟨name, underlying, { description, format, sample }⟩
  | _ => none

/-- A type with a name. -/
def Descriptor.IsNamed : Descriptor → Prop
  | .named .. => True
  | _ => False

theorem Use.stored?_of_not_isNamed {u : Use} (h : ¬ u.2.IsNamed) : u.stored? = none := by
  obtain ⟨embed, d⟩ := u
  cases embed with
  | true => rfl
  | false => cases d <;> first | rfl | exact absurd trivial h

theorem Use.stored?_named {embed inline : Bool} {name : String} {underlying : Descriptor}
    {description format sample : Option String} :
    Use.stored? (embed, .named name underlying description format sample inline) =
      if embed || inline then none
      else some ⟨name, underlying, { description, format, sample }⟩ := by
  cases embed <;> cases inline <;> rfl

/-- **The named types that a descriptor stores**, in the order of the walk. -/
def Descriptor.storedTypes (d : Descriptor) : List StoredType :=
  (d.walk false).filterMap Use.stored?

end OpenApi
