import OpenApi.Proofs.Journal
import OpenApi.Proofs.Lowering.Parts
import OpenApi.Proofs.Trees

/-!
# Proofs/Lowering/Definitions — where the definitions of a lowering come from

    definitions of the parts ++ … ++ definitions of `underlying` ++ [⟨name, its schema⟩]

Only a named type defines anything: itself, after all that the type under the name has defined.
Every other form puts the definitions of its parts one after the other.  So whatever is true of no
definitions, of two lists of them together, and of a named type's definitions once its own is added,
is true of the definitions of every lowering (`steps_lower`), also of one that fails.
-/

namespace OpenApi

/-! ## Lowerings without definitions -/

theorem Lowering.steps_require (condition : Bool) (path : DescriptorPath) (fault : ShapeFault) :
    (require condition path fault).steps = [] := by
  rw [require]
  split <;> rfl

namespace Variant

theorem steps_check {τ : Type} (enum : String) (variants : List (Variant τ))
    (path : DescriptorPath) : (check enum variants path).steps = [] := by
  have hnil : Journal.Closed fun defs : List Definition => defs = [] :=
    ⟨rfl, fun hs ht => by rw [hs, ht, List.append_nil]⟩
  rw [check]
  refine hnil.bind (Lowering.steps_require _ _ _) fun _ _ => ?_
  split <;> rfl

theorem steps_joinable (payload : Schema) (path : DescriptorPath) :
    (joinable payload path).steps = [] := by
  rw [joinable]
  split
  · rfl
  · split <;> rfl

theorem steps_tagged (tagKey : String) (tag : Schema) (description : Option String)
    (payload : Schema) (path : DescriptorPath) :
    (tagged tagKey tag description payload path).steps = [] := by
  rw [tagged]
  split
  · rfl
  · split <;> rfl

end Variant

namespace Descriptor

/-! ## Descriptors in descriptors -/

/-- **A descriptor inside another one** — the descriptor itself, or one that it is made of. -/
inductive Within (e : Descriptor) : Descriptor → Prop
  | self : Within e e
  | array {element : Descriptor} (h : Within e element) : Within e (.array element)
  | optional {inner : Descriptor} (h : Within e inner) : Within e (.optional inner)
  | map {value : Descriptor} (h : Within e value) : Within e (.map value)
  | tuple {items : List (TupleItem Descriptor)} {i : TupleItem Descriptor} (hi : i ∈ items)
    (h : Within e i.type) : Within e (.tuple items)
  | composite {mode : Composition} {members : List Descriptor} {m : Descriptor}
    (hm : m ∈ members) (h : Within e m) : Within e (.composite mode members)
  | object {name : Option String} {fields : List (Field Descriptor)} {f : Field Descriptor}
    (hf : f ∈ fields) (h : Within e f.type) : Within e (.object name fields)
  | item {name : String} {tagging : Tagging} {variants : List (Variant Descriptor)}
    {description : Option String} {x : Variant Descriptor} {i : TupleItem Descriptor}
    (hx : x ∈ variants) (hi : i ∈ x.items) (h : Within e i.type) :
    Within e (.enum name tagging variants description)
  | field {name : String} {tagging : Tagging} {variants : List (Variant Descriptor)}
    {description : Option String} {x : Variant Descriptor} {f : Field Descriptor}
    (hx : x ∈ variants) (hf : f ∈ x.fields) (h : Within e f.type) :
    Within e (.enum name tagging variants description)
  | named {name : String} {underlying : Descriptor} {description format sample : Option String}
    {inline : Bool} (h : Within e underlying) :
    Within e (.named name underlying description format sample inline)

/-! ## Lists of parts -/

/-- All that a descriptor defines, wherever it stands, is as it should be. -/
def Defines (P : List Definition → Prop) (d : Descriptor) : Prop :=
  ∀ embed path, P (d.lower embed path).steps

variable {P : List Definition → Prop}

theorem steps_lowerMembers (hP : Journal.Closed P) (path : DescriptorPath) (mode : Composition)
    (index : Nat) {members : List Descriptor} (h : ∀ m ∈ members, m.Defines P) :
    P (lowerMembers path mode index members).steps := by
  induction members generalizing index with
  | nil => exact hP.nil
  | cons m members ih =>
    obtain ⟨hm, hms⟩ := List.forall_mem_cons.mp h
    rw [lowerMembers]
    exact hP.bind (hm _ _) fun s _ => hP.bind (ih _ hms) fun ss _ => hP.nil

theorem steps_lowerItems (hP : Journal.Closed P) (embed : Bool) (path : DescriptorPath)
    (index : Nat) {items : List (TupleItem Descriptor)} (h : ∀ i ∈ items, i.type.Defines P) :
    P (lowerItems embed path index items).steps := by
  rw [lowerItems_eq_sequence]
  refine hP.sequence fun j hj => ?_
  obtain ⟨⟨i, k⟩, hi, rfl⟩ := List.mem_map.mp hj
  exact hP.bind (h i (List.fst_mem_of_mem_zipIdx hi) _ _) fun s _ => hP.nil

theorem steps_lowerFields (hP : Journal.Closed P) (embed : Bool) (path : DescriptorPath)
    (seen : List String) {fields : List (Field Descriptor)}
    (h : ∀ f ∈ fields, f.type.Defines P) : P (lowerFields embed path seen fields).steps := by
  induction fields generalizing seen with
  | nil => exact hP.nil
  | cons f fields ih =>
    obtain ⟨name, type, metadata, forceOptional, skip, inline⟩ := f
    obtain ⟨hf, hfs⟩ := List.forall_mem_cons.mp h
    rw [lowerFields]
    split
    · exact ih seen hfs
    · split
      · exact hP.nil
      · exact hP.bind (hf _ _) fun s _ => hP.bind (ih _ hfs) fun p _ => hP.nil

/-! ## Payloads -/

/-- All that the descriptors in a variant define is as it should be. -/
def DefinesIn (P : List Definition → Prop) (x : Variant Descriptor) : Prop :=
  (∀ i ∈ x.items, i.type.Defines P) ∧ ∀ f ∈ x.fields, f.type.Defines P

theorem steps_object (hP : Journal.Closed P) (description : Option String)
    {fields : Lowering (List (String × Schema) × List String)} (h : P fields.steps) :
    P (Lowering.object description fields).steps := by
  rw [Lowering.object]
  exact hP.bind h fun p _ => hP.nil

theorem steps_tuple (hP : Journal.Closed P) (path : DescriptorPath) (description : Option String)
    (nonempty : Bool) {members : Lowering (List Schema)} (h : P members.steps) :
    P (Lowering.tuple path description nonempty members).steps := by
  rw [Lowering.tuple]
  refine hP.bind ?_ fun _ _ => hP.bind h fun ss _ => hP.nil
  rw [Lowering.steps_require]
  exact hP.nil

theorem steps_lowerPayload (hP : Journal.Closed P) (path : DescriptorPath)
    {x : Variant Descriptor} (h : DefinesIn P x) : P (lowerPayload path x).steps := by
  obtain ⟨hi, hf⟩ := h
  rw [lowerPayload.eq_def]
  split
  · exact steps_object hP _ (steps_lowerFields hP _ _ _ hf)
  · exact hP.nil
  · exact hP.bind ((List.forall_mem_cons.mp hi).1 _ _) fun s _ => hP.nil
  · exact hP.bind ((List.forall_mem_cons.mp hi).1 _ _) fun s _ => hP.nil
  · exact steps_tuple hP _ _ _ (steps_lowerItems hP _ _ _ hi)

theorem steps_lowerUntagged (hP : Journal.Closed P) (path : DescriptorPath)
    {x : Variant Descriptor} (h : DefinesIn P x) : P (lowerUntagged path x).steps := by
  obtain ⟨hi, hf⟩ := h
  have hjoin : ∀ s, P (Variant.joinable s path).steps := fun s => by
    rw [Variant.steps_joinable]
    exact hP.nil
  rw [lowerUntagged.eq_def]
  split
  · exact hP.nil
  · exact steps_object hP _ (steps_lowerFields hP _ _ _ hf)
  · exact hP.bind ((List.forall_mem_cons.mp hi).1 _ _) fun s _ => hjoin s
  · exact hP.bind ((List.forall_mem_cons.mp hi).1 _ _) fun s _ => hjoin s
  · exact hP.nil
  · exact hP.nil

section Variants

variable {variants : List (Variant Descriptor)}

/-- What one variant after another defines, if each is a serialized one. -/
theorem steps_variants (hP : Journal.Closed P) {vs : List (Variant Descriptor)}
    {f : Variant Descriptor → Lowering Schema} (hvs : vs ⊆ variants)
    (h : ∀ x ∈ variants, P (f x).steps) : P (Journal.sequence (vs.map f)).steps := by
  refine hP.sequence fun j hj => ?_
  obtain ⟨x, hx, rfl⟩ := List.mem_map.mp hj
  exact h x (hvs hx)

/-- Every tagging defines what the parts of the variants do. -/
theorem steps_lowerEnum (hP : Journal.Closed P) (embed : Bool) (path : DescriptorPath)
    (name : String) (tagging : Tagging) (description : Option String)
    (h : ∀ x ∈ variants, DefinesIn P x) :
    P ((enum name tagging variants description).lower embed path).steps := by
  have hlive : Variant.serialized variants ⊆ variants := List.filter_sublist.subset
  have hpayloads : ∀ path : DescriptorPath, P (lowerPayloads path variants).steps := by
    intro path
    rw [lowerPayloads_eq_sequence]
    exact steps_variants hP (List.Subset.trans List.filter_sublist.subset hlive) fun x hx =>
      steps_lowerPayload hP _ (h x hx)
  rw [lower]
  refine hP.bind ?_ fun _ _ => ?_
  · rw [Variant.steps_check]
    exact hP.nil
  dsimp only
  split
  · exact hP.nil
  · split
    · refine hP.bind ?_ fun ss _ => hP.nil
      rw [lowerExternal_eq_sequence]
      refine steps_variants hP hlive fun x hx => ?_
      rw [lowerBranch]
      split
      · exact steps_lowerPayload hP _ (h x hx)
      · exact hP.nil
    · refine hP.bind ?_ fun ss _ => hP.nil
      rw [lowerInternal_eq_sequence]
      refine steps_variants hP hlive fun x hx => ?_
      refine hP.bind (steps_lowerUntagged hP _ (h x hx)) fun s _ => ?_
      rw [Variant.steps_tagged]
      exact hP.nil
    · refine hP.bind ?_ fun _ _ => hP.bind (hpayloads _) fun ss _ => hP.nil
      rw [Lowering.steps_require]
      exact hP.nil
    · split
      · exact hP.bind hP.nil fun _ _ => hP.bind (hpayloads _) fun ss _ => hP.nil
      · exact hP.bind (hpayloads _) fun ss _ => hP.nil

end Variants

/-! ## Descriptors -/

/-- A named type that is stored may be added to what it has defined so far. -/
def Adds (P : List Definition → Prop) (name : String) (underlying : Descriptor) (m : Metadata) :
    Prop :=
  ∀ path content, (underlying.lower false path).outcome = .ok content →
    P (underlying.lower false path).steps →
    P ((underlying.lower false path).steps ++ [⟨name, content.withMetadata m⟩])

/-- **The definitions of a lowering come from its named types**, each behind those of the type under
its name — also if the lowering fails in the end. -/
theorem steps_lower (hP : Journal.Closed P) (d : Descriptor)
    (h : ∀ name underlying description format sample,
      (named name underlying description format sample false).Within d →
        Adds P name underlying { description, format, sample }) : d.Defines P := by
  induction d using Descriptor.tree with
  | primitive kind format => exact fun embed path => hP.nil
  | array element ih =>
    intro embed path
    exact hP.bind (ih (fun n u de f s hw => h n u de f s hw.array) _ _) fun s _ => hP.nil
  | optional inner ih =>
    intro embed path
    exact hP.bind (ih (fun n u de f s hw => h n u de f s hw.optional) _ _) fun s _ => hP.nil
  | map value ih =>
    intro embed path
    exact hP.bind (ih (fun n u de f s hw => h n u de f s hw.map) _ _) fun s _ => hP.nil
  | tuple items ih =>
    intro embed path
    rw [lower]
    exact steps_tuple hP _ _ _ (steps_lowerItems hP _ _ _ fun i hi =>
      ih i hi fun n u de f s hw => h n u de f s (hw.tuple hi))
  | any => exact fun embed path => hP.nil
  | composite mode members ih =>
    intro embed path
    rw [lower]
    refine hP.bind ?_ fun _ _ => hP.bind (steps_lowerMembers hP _ _ _ fun m hm =>
      ih m hm fun n u de f s hw => h n u de f s (hw.composite hm)) fun ss _ => hP.nil
    rw [Lowering.steps_require]
    exact hP.nil
  | object name fields ih =>
    intro embed path
    rw [lower]
    exact steps_object hP _ (steps_lowerFields hP _ _ _ fun f hf =>
      ih f hf fun n u de fo s hw => h n u de fo s (hw.object hf))
  | enum name tagging variants description ih =>
    intro embed path
    refine steps_lowerEnum hP embed path name tagging description fun x hx => ⟨?_, ?_⟩
    · exact fun i hi => (ih x hx).1 i hi fun n u de f s hw => h n u de f s (hw.item hx hi)
    · exact fun f hf => (ih x hx).2 f hf fun n u de fo s hw => h n u de fo s (hw.field hx hf)
  | named name underlying description format sample inline ih =>
    intro embed path
    have hunder := ih (fun n u de f s hw => h n u de f s hw.named) embed (path.enter name)
    rw [lower]
    cases hstore : embed || inline with
    | true => exact hP.bind hunder fun s _ => hP.nil
    | false =>
      obtain ⟨rfl, rfl⟩ := Bool.or_eq_false_iff.mp hstore
      cases houtcome : (underlying.lower false (path.enter name)).outcome with
      | error e =>
        rw [Journal.bind_of_error houtcome]
        exact hunder
      | ok content =>
        rw [Journal.bind_of_ok houtcome]
        exact h name underlying description format sample .self _ content houtcome hunder
  | reference name => exact fun embed path => hP.nil

end Descriptor

end OpenApi
