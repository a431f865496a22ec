import OpenApi.Proofs.Journal.Akin
import OpenApi.Proofs.Lowering.Parts
import OpenApi.Proofs.Trees

/-!
# Proofs/Lowering/Paths — a path is told in failures only

A lowering carries the path of its descriptor along and never looks at it.  So at two paths a
descriptor has the same schema and the same definitions, or none at either (`agree_lower`).
-/

namespace OpenApi

/-! ## Lowerings that agree -/

/-- **Two lowerings agree** — they end in the same and define the same, or both fail. -/
abbrev Lowering.Agree {α : Type} (l l' : Lowering α) : Prop := Journal.Akin (· = ·) l l'

namespace Lowering

variable {α β : Type} {l l' : Lowering α} {p q : DescriptorPath}

theorem Agree.refl (l : Lowering α) : Agree l l := Journal.Akin.refl (fun _ => rfl) l

theorem Agree.bind {f g : α → Lowering β} (h : Agree l l') (hf : ∀ a, Agree (f a) (g a)) :
    Agree (l >>= f) (l' >>= g) :=
  Journal.Akin.bind h fun a _ hab => hab ▸ hf a

/-- What is made of the values alone is the same. -/
theorem Agree.map (h : Agree l l') (f : α → β) :
    Agree (l >>= fun a => pure (f a)) (l' >>= fun a => pure (f a)) :=
  h.bind fun _ => .refl _

theorem Agree.sequence {τ : Type} {parts : List τ} {f g : τ → Lowering α}
    (h : ∀ t ∈ parts, Agree (f t) (g t)) :
    Agree (Journal.sequence (parts.map f)) (Journal.sequence (parts.map g)) := by
  have hparts : List.Forall₂ Agree (parts.map f) (parts.map g) :=
    List.forall₂_map_left_iff.mpr (List.forall₂_map_right_iff.mpr (List.forall₂_same.mpr h))
  refine (Journal.Akin.sequence hparts).imp fun as bs hab => ?_
  rwa [List.forall₂_eq_eq_eq] at hab

theorem Agree.outcome {a : α} (h : Agree l l') (hl : l.outcome = .ok a) : l'.outcome = .ok a := by
  cases h with
  | ok _ hab => exact hab ▸ hl
  | error => cases hl

theorem agree_require (condition : Bool) (fault : ShapeFault) :
    Agree (require condition p fault) (require condition q fault) := by
  rw [require, require]
  split
  · exact .refl _
  · exact .error

theorem agree_tuple (description : Option String) (nonempty : Bool)
    {members members' : Lowering (List Schema)} (h : Agree members members') :
    Agree (tuple p description nonempty members) (tuple q description nonempty members') := by
  rw [tuple, tuple]
  exact (agree_require _ _).bind fun _ => h.map _

theorem agree_object (description : Option String)
    {fields fields' : Lowering (List (String × Schema) × List String)} (h : Agree fields fields') :
    Agree (object description fields) (object description fields') := by
  rw [object, object]
  exact h.map _

end Lowering

open Lowering

namespace Variant

variable {p q : DescriptorPath}

theorem agree_check {τ : Type} (enum : String) (variants : List (Variant τ)) :
    Agree (check enum variants p) (check enum variants q) := by
  rw [check, check]
  refine (agree_require _ _).bind fun _ => ?_
  split
  · exact .error
  · exact .refl _

theorem agree_joinable (payload : Schema) : Agree (joinable payload p) (joinable payload q) := by
  rw [joinable, joinable]
  split
  · exact .refl _
  · split
    · exact .refl _
    · exact .error

theorem agree_tagged (tagKey : String) (tag : Schema) (description : Option String)
    (payload : Schema) :
    Agree (tagged tagKey tag description payload p) (tagged tagKey tag description payload q) := by
  rw [tagged, tagged]
  split
  · exact .refl _
  · split
    · exact .error
    · exact .refl _

end Variant

namespace Descriptor

/-! ## Parts -/

/-- **A descriptor is lowered the same everywhere.** -/
def Placeless (d : Descriptor) : Prop :=
  ∀ (embed : Bool) (p q : DescriptorPath), Agree (d.lower embed p) (d.lower embed q)

variable {p q : DescriptorPath} {embed : Bool}

theorem agree_lowerItems {items : List (TupleItem Descriptor)} (h : ∀ i ∈ items, i.type.Placeless) :
    Agree (lowerItems embed p 0 items) (lowerItems embed q 0 items) := by
  rw [lowerItems_eq_sequence, lowerItems_eq_sequence]
  exact .sequence fun i hi => (h i.1 (List.fst_mem_of_mem_zipIdx hi) _ _ _).map _

theorem agree_lowerMembers (mode : Composition) {members : List Descriptor}
    (h : ∀ m ∈ members, m.Placeless) :
    Agree (lowerMembers p mode 0 members) (lowerMembers q mode 0 members) := by
  rw [lowerMembers_eq_sequence, lowerMembers_eq_sequence]
  exact .sequence fun m hm => h m.1 (List.fst_mem_of_mem_zipIdx hm) _ _ _

theorem agree_lowerFields {fields : List (Field Descriptor)} (h : ∀ f ∈ fields, f.type.Placeless)
    (seen : List String) :
    Agree (lowerFields embed p seen fields) (lowerFields embed q seen fields) := by
  induction fields generalizing seen with
  | nil => exact .refl _
  | cons f fields ih =>
    obtain ⟨name, type, metadata, forceOptional, skip, inline⟩ := f
    obtain ⟨hf, hfs⟩ := List.forall_mem_cons.mp h
    rw [lowerFields, lowerFields]
    split
    · exact ih hfs seen
    · split
      · exact .error
      · exact (hf _ _ _).bind fun s => (ih hfs _).map _

/-- The items and the fields of a variant are lowered the same everywhere. -/
def PlacelessIn (x : Variant Descriptor) : Prop :=
  (∀ i ∈ x.items, i.type.Placeless) ∧ ∀ f ∈ x.fields, f.type.Placeless

theorem agree_lowerPayload {x : Variant Descriptor} (h : PlacelessIn x) :
    Agree (lowerPayload p x) (lowerPayload q x) := by
  obtain ⟨hi, hf⟩ := h
  rw [lowerPayload.eq_def, lowerPayload.eq_def]
  split
  · exact agree_object _ (agree_lowerFields hf _)
  · exact .error
  · exact ((List.forall_mem_cons.mp hi).1 _ _ _).map _
  · exact ((List.forall_mem_cons.mp hi).1 _ _ _).map _
  · exact agree_tuple _ _ (agree_lowerItems hi)

theorem agree_lowerUntagged {x : Variant Descriptor} (h : PlacelessIn x) :
    Agree (lowerUntagged p x) (lowerUntagged q x) := by
  obtain ⟨hi, hf⟩ := h
  rw [lowerUntagged.eq_def, lowerUntagged.eq_def]
  split
  · exact .refl _
  · exact agree_object _ (agree_lowerFields hf _)
  · exact ((List.forall_mem_cons.mp hi).1 _ _ _).bind fun s => Variant.agree_joinable s
  · exact ((List.forall_mem_cons.mp hi).1 _ _ _).bind fun s => Variant.agree_joinable s
  · exact .error
  · exact .error

/-- Every tagging lowers its variants the same everywhere. -/
theorem placeless_enum {variants : List (Variant Descriptor)} (h : ∀ x ∈ variants, PlacelessIn x)
    (name : String) (tagging : Tagging) (description : Option String) :
    (enum name tagging variants description).Placeless := by
  have hlive : ∀ x ∈ Variant.serialized variants, PlacelessIn x := fun x hx =>
    h x (List.mem_filter.mp hx).1
  have hpayloads : ∀ p q : DescriptorPath,
      Agree (lowerPayloads p variants) (lowerPayloads q variants) := by
    intro p q
    rw [lowerPayloads_eq_sequence, lowerPayloads_eq_sequence]
    exact .sequence fun x hx => agree_lowerPayload (hlive x (List.mem_filter.mp hx).1)
  intro embed p q
  rw [lower, lower]
  refine (Variant.agree_check _ _).bind fun _ => ?_
  dsimp only
  split
  · exact .refl _
  · split
    · refine Agree.map ?_ _
      rw [lowerExternal_eq_sequence, lowerExternal_eq_sequence]
      refine .sequence fun x hx => ?_
      rw [lowerBranch, lowerBranch]
      split
      · exact agree_lowerPayload (hlive x hx)
      · exact .refl _
    · refine Agree.map ?_ _
      rw [lowerInternal_eq_sequence, lowerInternal_eq_sequence]
      exact .sequence fun x hx => (agree_lowerUntagged (hlive x hx)).bind fun s =>
        Variant.agree_tagged _ _ _ s
    · exact (agree_require _ _).bind fun _ => (hpayloads _ _).map _
    · split
      · exact .error
      · exact (hpayloads _ _).map _

/-! ## Descriptors -/

/-- **At two paths a lowering comes to the same.** -/
theorem agree_lower (d : Descriptor) : d.Placeless := by
  induction d using Descriptor.tree with
  | primitive kind format => exact fun _ _ _ => .refl _
  | array element ih => exact fun _ _ _ => (ih _ _ _).map _
  | optional inner ih => exact fun _ _ _ => (ih _ _ _).map _
  | map value ih => exact fun _ _ _ => (ih _ _ _).map _
  | tuple items ih => exact fun _ _ _ => agree_tuple _ _ (agree_lowerItems ih)
  | any => exact fun _ _ _ => .refl _
  | composite mode members ih =>
    exact fun _ _ _ => (agree_require _ _).bind fun _ => (agree_lowerMembers mode ih).map _
  | object name fields ih => exact fun _ _ _ => agree_object _ (agree_lowerFields ih _)
  | enum name tagging variants description ih => exact placeless_enum ih name tagging description
  | named name underlying description format sample inline ih =>
    intro embed p q
    rw [lower, lower]
    exact (ih _ _ _).bind fun s => .refl _
  | reference name => exact fun _ _ _ => .refl _

/-- The schema of a descriptor at some path is its schema at any other. -/
theorem outcome_lower_eq_ok {d : Descriptor} {s : Schema}
    (h : (d.lower embed p).outcome = .ok s) (q : DescriptorPath) :
    (d.lower embed q).outcome = .ok s :=
  (agree_lower d embed p q).outcome h

theorem placelessIn (x : Variant Descriptor) : PlacelessIn x :=
  ⟨fun i _ => agree_lower i.type, fun f _ => agree_lower f.type⟩

theorem outcome_lowerPayload_eq_ok {x : Variant Descriptor} {s : Schema}
    (h : (lowerPayload p x).outcome = .ok s) (q : DescriptorPath) :
    (lowerPayload q x).outcome = .ok s :=
  (agree_lowerPayload (placelessIn x)).outcome h

theorem outcome_lowerUntagged_eq_ok {x : Variant Descriptor} {s : Schema}
    (h : (lowerUntagged p x).outcome = .ok s) (q : DescriptorPath) :
    (lowerUntagged q x).outcome = .ok s :=
  (agree_lowerUntagged (placelessIn x)).outcome h

end Descriptor

end OpenApi
