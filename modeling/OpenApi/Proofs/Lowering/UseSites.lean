import Mathlib.Logic.Function.Iterate
import OpenApi.Proofs.Journal.Twin
import OpenApi.Proofs.Lowering.Payloads

/-!
# Proofs/Lowering/UseSites — what a field says about its value stays with the field

    fields        a     f     b           a     f'    b
                  │     │     │           │     │     │
    definitions   …     …     …     =     …     …     …
    properties    a     s     b           a     s'    b

A field says how its value is described, whether null may stand for it and whether it may be absent.
Saying something else changes the schema of its own property and the list of required names, and
nothing that is stored (`twin_lowerFields_restated`).  Whether the name is required depends on
`skip` and `forceOptional` alone (`required_of_lowerFields`), whether null is admitted on the type
and the metadata (`Field.Shown`).
-/

namespace OpenApi

open Journal (Twin)

/-! ## Fields with other words -/

/-- **The same field with other words about its value** — other metadata, another say on its
absence, and its type in some more `optional`. -/
def Field.restated (f : Field Descriptor) (options : ℕ) (metadata : Metadata)
    (forceOptional : Bool) : Field Descriptor :=
  { f with type := Descriptor.optional^[options] f.type, metadata, forceOptional }

/-- The names of the fields that an object must have. -/
def requiredNames {τ : Type} (fields : List (Field τ)) : List String :=
  (fields.filter fun f => !f.skip && !f.forceOptional).map (·.name)

/-- Each field adds its own name, or none. -/
theorem requiredNames_append_cons {τ : Type} (before after : List (Field τ)) (f : Field τ) :
    requiredNames (before ++ f :: after) =
      requiredNames before ++ (if f.skip || f.forceOptional then [] else [f.name]) ++
        requiredNames after := by
  rw [requiredNames, List.filter_append, List.filter_cons, List.map_append, List.append_assoc]
  cases f.skip <;> cases f.forceOptional <;> rfl

theorem mem_liveNames {τ : Type} {fields : List (Field τ)} {name : String} :
    name ∈ liveNames fields ↔ ∃ f ∈ fields, f.skip = false ∧ f.name = name := by
  simp only [liveNames, List.mem_map, List.mem_filter, Bool.not_eq_true', and_assoc]

theorem mem_requiredNames {τ : Type} {fields : List (Field τ)} {name : String} :
    name ∈ requiredNames fields ↔
      ∃ f ∈ fields, (f.skip = false ∧ f.forceOptional = false) ∧ f.name = name := by
  simp only [requiredNames, List.mem_map, List.mem_filter, Bool.and_eq_true, Bool.not_eq_true',
    and_assoc]

/-- **A field decides itself whether its name is required**, if no other serialized one has its
name; and if it is serialized, none has. -/
theorem mem_requiredNames_iff {τ : Type} {before after : List (Field τ)} {f : Field τ}
    (hnodup : (liveNames (before ++ f :: after)).Nodup)
    (hown : f.skip = false ∨ f.name ∉ liveNames (before ++ after)) :
    f.name ∈ requiredNames (before ++ f :: after) ↔ f.skip = false ∧ f.forceOptional = false := by
  have hmem : f ∈ before ++ f :: after := List.mem_append_right _ List.mem_cons_self
  rw [mem_requiredNames]
  refine ⟨?_, fun hf => ⟨f, hmem, hf, rfl⟩⟩
  rintro ⟨g, hg, hforce, hname⟩
  have hgf : g = f ∨ g ∈ before ++ after := by
    rw [List.mem_append, List.mem_cons] at hg
    rw [List.mem_append]
    tauto
  obtain rfl | hother := hgf
  · exact hforce
  · have hlive : g ∈ (before ++ f :: after).filter (!·.skip) :=
      List.mem_filter.mpr ⟨hg, by rw [hforce.1]; rfl⟩
    obtain live | hfree := hown
    · have hf : f ∈ (before ++ f :: after).filter (!·.skip) :=
        List.mem_filter.mpr ⟨hmem, by rw [live]; rfl⟩
      exact List.inj_on_of_nodup_map hnodup hlive hf hname ▸ hforce
    · exact absurd (mem_liveNames.mpr ⟨g, hother, hforce.1, hname⟩) hfree

/-- **Where the fields of a structure stand**: in an object, in a variant, or in a variant that a
tag is to join. -/
inductive StructureSite where
  | object (name : Option String) (embed : Bool)
  | payload (x : Variant Descriptor)
  | tagged (x : Variant Descriptor)

/-- A variant as a structure of some fields. -/
def Variant.withFields {τ : Type} (x : Variant τ) (fields : List (Field τ)) : Variant τ :=
  { x with style := .struct, fields }

/-- The lowering of some fields at their place. -/
def StructureSite.lower (path : DescriptorPath) (fields : List (Field Descriptor)) :
    StructureSite → Lowering Schema
  | .object name embed => (Descriptor.object name fields).lower embed path
  | .payload x => Descriptor.lowerPayload path (x.withFields fields)
  | .tagged x => Descriptor.lowerUntagged path (x.withFields fields)

/-- Whether all fields there embed named types, also those that are not marked inline. -/
def StructureSite.embeds : StructureSite → Bool
  | .object _ _ => false
  | .payload x | .tagged x => x.inline

/-- Everywhere the fields are made an object in the same way. -/
theorem StructureSite.exists_lower_eq (site : StructureSite) (path : DescriptorPath) :
    ∃ (description : Option String) (p : DescriptorPath), ∀ fields,
      site.lower path fields =
        Lowering.object description (Descriptor.lowerFields site.embeds p [] fields) := by
  obtain ⟨name, embed⟩ | x | x := site
  · exact ⟨none, _, fun fields => rfl⟩
  · exact ⟨x.description, path, fun fields => rfl⟩
  · exact ⟨none, path, fun fields => rfl⟩

/-! ## Two structures that differ at one name -/

/-- Two lists of properties differ at most in what stands under one name. -/
def SameButAt (name : String) (ps qs : List (String × Schema)) : Prop :=
  List.Forall₂ (fun p q => p.1 = q.1 ∧ (p.1 ≠ name → p.2 = q.2)) ps qs

theorem SameButAt.refl (name : String) (ps : List (String × Schema)) : SameButAt name ps ps :=
  List.forall₂_same.mpr fun _ _ => ⟨rfl, fun _ => rfl⟩

/-- Two lists of properties differ at most in the schema under one name, and two lists of required
names at most in this name. -/
structure Lowering.DifferAt (name : String) (p q : List (String × Schema) × List String) :
    Prop where
  properties : SameButAt name p.1 q.1
  required : p.2.filter (· ≠ name) = q.2.filter (· ≠ name)

theorem Lowering.DifferAt.refl (name : String) (p : List (String × Schema) × List String) :
    DifferAt name p p := ⟨.refl name p.1, rfl⟩

/-- **Two schemas differ at one name** — at most in the schema of the property of this name, and in
whether the name is required. -/
structure Schema.DifferAt (name : String) (s t : Schema) : Prop where
  properties : SameButAt name s.properties t.properties
  required : s.required.filter (· ≠ name) = t.required.filter (· ≠ name)
  rest : t = { s with properties := t.properties, required := t.required }

theorem Schema.DifferAt.refl (name : String) (s : Schema) : s.DifferAt name s := by
  cases s
  exact ⟨.refl name _, rfl, rfl⟩

theorem SameButAt.names_eq {name : String} {ps qs : List (String × Schema)}
    (h : SameButAt name ps qs) : ps.map (·.1) = qs.map (·.1) := by
  induction h with
  | nil => rfl
  | cons hpq _ ih => rw [List.map_cons, List.map_cons, hpq.1, ih]

namespace Descriptor

variable {embed : Bool} {path : DescriptorPath}

/-! ## Two lowerings in step -/

/-- **A type and the same in `optional` are lowered in step.** -/
theorem twin_optional (d : Descriptor) (embed : Bool) (path : DescriptorPath) (options : ℕ) :
    Twin (fun _ _ => True) (d.lower embed path)
      ((Descriptor.optional^[options] d).lower embed path) := by
  induction options with
  | zero => exact .refl (fun _ => trivial) _
  | succ options ih =>
    rw [Function.iterate_succ_apply', lower]
    exact ih.map_right fun _ _ _ => trivial

variable {name : String}

/-- A field in front changes nothing. -/
theorem twin_lowerFields_cons (f : Field Descriptor) {fields fields' : List (Field Descriptor)}
    (h : ∀ seen, Twin (Lowering.DifferAt name) (lowerFields embed path seen fields)
      (lowerFields embed path seen fields')) (seen : List String) :
    Twin (Lowering.DifferAt name) (lowerFields embed path seen (f :: fields))
      (lowerFields embed path seen (f :: fields')) := by
  obtain ⟨n, type, metadata, forceOptional, skip, inline⟩ := f
  rw [lowerFields, lowerFields]
  split
  · exact h seen
  · split
    · exact .error
    · refine .bind (.refl (fun _ => rfl) _) fun s t hst => ?_
      obtain rfl : s = t := hst
      refine (h (n :: seen)).map fun p q hpq => ⟨.cons ⟨rfl, fun _ => rfl⟩ hpq.properties, ?_⟩
      split
      · exact hpq.required
      · rw [List.filter_cons, List.filter_cons, hpq.required]

/-- **A field with other words is lowered in step** — before any further fields. -/
theorem twin_lowerFields_restated (f : Field Descriptor) (options : ℕ) (metadata : Metadata)
    (forceOptional : Bool) (after : List (Field Descriptor)) (seen : List String) :
    Twin (Lowering.DifferAt f.name) (lowerFields embed path seen (f :: after))
      (lowerFields embed path seen (f.restated options metadata forceOptional :: after)) := by
  obtain ⟨n, type, metadata₀, forceOptional₀, skip, inline⟩ := f
  rw [Field.restated, lowerFields, lowerFields]
  split
  · exact .refl (.refl n) _
  · split
    · exact .error
    · have hown : ∀ (forced : Bool) (names : List String),
          (if forced then names else n :: names).filter (· ≠ n) = names.filter (· ≠ n) := by
        intro forced names
        cases forced <;> simp
      refine (twin_optional type (embed || inline) (path.enter n) options).bind fun s t _ =>
        Twin.map (Twin.refl (Lowering.DifferAt.refl n) _) fun p q hpq =>
          ⟨.cons ⟨rfl, fun hne => absurd rfl hne⟩ hpq.properties, ?_⟩
      rw [hown, hown, hpq.required]

theorem twin_lowerFields (before after : List (Field Descriptor)) (f : Field Descriptor)
    (options : ℕ) (metadata : Metadata) (forceOptional : Bool) (seen : List String) :
    Twin (Lowering.DifferAt f.name) (lowerFields embed path seen (before ++ f :: after))
      (lowerFields embed path seen
        (before ++ f.restated options metadata forceOptional :: after)) := by
  induction before generalizing seen with
  | nil => exact twin_lowerFields_restated f options metadata forceOptional after seen
  | cons g before ih => exact twin_lowerFields_cons g ih seen

/-- A skipped field may be taken out. -/
theorem lowerFields_skip {f : Field Descriptor} (skip : f.skip = true)
    (before after : List (Field Descriptor)) (seen : List String) :
    lowerFields embed path seen (before ++ f :: after) =
      lowerFields embed path seen (before ++ after) := by
  induction before generalizing seen with
  | nil =>
    obtain ⟨n, type, metadata, forceOptional, _, inline⟩ := f
    obtain rfl := skip
    rw [List.nil_append, lowerFields, if_pos rfl, List.nil_append]
  | cons g before ih =>
    obtain ⟨n, type, metadata, forceOptional, skip, inline⟩ := g
    rw [List.cons_append, List.cons_append, lowerFields, lowerFields, ih seen, ih (n :: seen)]

/-- **Objects are made in step.** -/
theorem twin_object (description : Option String)
    {fields fields' : Lowering (List (String × Schema) × List String)}
    (h : Twin (Lowering.DifferAt name) fields fields') :
    Twin (Schema.DifferAt name) (Lowering.object description fields)
      (Lowering.object description fields') :=
  h.map fun _ _ hpq => ⟨forall₂_sortOn hpq.properties, hpq.required, rfl⟩

/-! ## What a structure shows of its fields -/

/-- **What is required** are the fields that are serialized and not forced to be optional. -/
theorem required_of_lowerFields {fields : List (Field Descriptor)} :
    ∀ {seen : List String} {defs : List Definition} {p : List (String × Schema) × List String},
      (lowerFields embed path seen fields).Run defs p → p.2 = requiredNames fields := by
  induction fields with
  | nil =>
    intro seen defs p h
    obtain ⟨-, rfl⟩ := run_lowerFields_nil.mp h
    rfl
  | cons f fields ih =>
    intro seen defs p h
    obtain ⟨skip, rest⟩ | ⟨live, -, _, _, _, q, -, rest, -, rfl⟩ := run_lowerFields_cons.mp h
    · simpa [requiredNames, skip] using ih rest
    · have hq : q.2 = requiredNames fields := ih rest
      cases hforce : f.forceOptional <;> simp [requiredNames, live, hforce, hq]

/-- A serialized field has a property, the schema of its type with its metadata on top. -/
theorem property_of_lowerFields {fields : List (Field Descriptor)} :
    ∀ {seen : List String} {defs : List Definition} {p : List (String × Schema) × List String},
      (lowerFields embed path seen fields).Run defs p → ∀ f ∈ fields, f.skip = false →
        ∃ i, (f.type.lower (embed || f.inline) (path.enter f.name)).outcome = .ok i ∧
          (f.name, i.withMetadata f.metadata) ∈ p.1 := by
  induction fields with
  | nil => exact fun _ f hf => nomatch hf
  | cons g fields ih =>
    intro seen defs p h f hf live
    obtain ⟨skip, rest⟩ | ⟨-, -, _, i, _, q, hi, rest, -, rfl⟩ := run_lowerFields_cons.mp h
    · obtain rfl | hf := List.mem_cons.mp hf
      · rw [skip] at live
        cases live
      · exact ih rest f hf live
    · obtain rfl | hf := List.mem_cons.mp hf
      · exact ⟨i, hi.outcome, List.mem_cons_self⟩
      · obtain ⟨j, hj, hmem⟩ := ih rest f hf live
        exact ⟨j, hj, List.mem_cons_of_mem _ hmem⟩

section Properties

variable {fields : List (Field Descriptor)} {defs : List Definition}
  {p : List (String × Schema) × List String}

/-- The properties have different names. -/
theorem nodup_of_lowerFields (h : (lowerFields embed path [] fields).Run defs p) :
    (p.1.map (·.1)).Nodup :=
  ((yields_lowerFields embed path [] fun f _ => yields_lower f.type).value p h.outcome).nodup

/-- Each property is found in the object that is made of all of them. -/
theorem get?_of_lowerFields (h : (lowerFields embed path [] fields).Run defs p) {name : String}
    {s : Schema} (hs : (name, s) ∈ p.1) : Table.get? name (sortOn (·.1) p.1) = some s := by
  have hkeys : ((sortOn (·.1) p.1).map (·.1)).Nodup :=
    ((sortOn_perm _ _).map _).nodup_iff.mpr (nodup_of_lowerFields h)
  exact (Table.get?_eq_some_iff hkeys).mpr (mem_sortOn.mpr hs)

end Properties

end Descriptor

/-- **What an object shows of a field between others.**  In its place among the required names, the
field lists its own exactly if it is neither skipped nor forced to be optional; so its name is
required exactly if it is such a one, unless it is skipped and another field of that name lists it.
Null is admitted under the name if the field is nullable or its type an `optional`. -/
structure Field.Shown (before : List (Field Descriptor)) (f : Field Descriptor)
    (after : List (Field Descriptor)) (s : Schema) : Prop where
  required : s.required = requiredNames before ++
    (if f.skip || f.forceOptional then [] else [f.name]) ++ requiredNames after
  listed : f.skip = false ∨ f.name ∉ liveNames (before ++ after) →
    (f.name ∈ s.required ↔ f.skip = false ∧ f.forceOptional = false)
  nullable : f.skip = false → (f.metadata.nullable = true ∨ ∃ inner, f.type = .optional inner) →
    ∃ property, Table.get? f.name s.properties = some property ∧ property.metadata.nullable = true

namespace Descriptor

variable {embed : Bool} {path : DescriptorPath}

/-- **An object shows each of its fields.** -/
theorem shown_of_lowerFields {before after : List (Field Descriptor)} {f : Field Descriptor}
    {defs : List Definition} {p : List (String × Schema) × List String}
    (description : Option String)
    (h : (lowerFields embed path [] (before ++ f :: after)).Run defs p) :
    f.Shown before after (Schema.object p.1 p.2 description) := by
  have hnames : p.1.map (·.1) = liveNames (before ++ f :: after) := names_of_lowerFields h
  have hnodup : (p.1.map (·.1)).Nodup := nodup_of_lowerFields h
  have hmem : f ∈ before ++ f :: after := List.mem_append_right _ List.mem_cons_self
  have hrequired : p.2 = requiredNames (before ++ f :: after) := required_of_lowerFields h
  refine ⟨hrequired.trans (requiredNames_append_cons before after f), fun hown => ?_,
    fun live hnull => ?_⟩
  · exact hrequired ▸ mem_requiredNames_iff (hnames ▸ hnodup) hown
  · obtain ⟨i, hi, hproperty⟩ := property_of_lowerFields h f hmem live
    refine ⟨i.withMetadata f.metadata, get?_of_lowerFields h hproperty, ?_⟩
    rw [Schema.nullable_withMetadata (wellFormed_of_lower hi), Bool.or_eq_true]
    refine hnull.symm.imp_left ?_
    rintro ⟨inner, htype⟩
    rw [htype] at hi
    obtain ⟨j, hj, hs⟩ := Journal.bind_eq_ok_iff.mp hi
    obtain rfl := Except.ok.inj hs
    rw [Schema.nullable_withMetadata (wellFormed_of_lower hj), Bool.or_true]

/-! ## Enums with such a structure -/

/-- Two schemas look the same to a tag: they are of one kind and have properties of the same
names. -/
def SameFace (s t : Schema) : Prop :=
  s.kind = t.kind ∧ s.properties.map (·.1) = t.properties.map (·.1)

/-- **Two variants are lowered in step**, and look the same to their enum and to a tag. -/
structure TwinVariants (x y : Variant Descriptor) : Prop where
  name : x.name = y.name
  skip : x.skip = y.skip
  hasPayload : x.hasPayload = y.hasPayload
  description : x.description = y.description
  payload : ∀ path, Twin (fun _ _ => True) (lowerPayload path x) (lowerPayload path y)
  untagged : ∀ path, Twin SameFace (lowerUntagged path x) (lowerUntagged path y)

theorem TwinVariants.refl (x : Variant Descriptor) : TwinVariants x x :=
  ⟨rfl, rfl, rfl, rfl, fun _ => .refl (fun _ => trivial) _, fun _ => .refl (fun _ => ⟨rfl, rfl⟩) _⟩

theorem twinVariants_restated (x : Variant Descriptor) (before after : List (Field Descriptor))
    (f : Field Descriptor) (options : ℕ) (metadata : Metadata) (forceOptional : Bool) :
    TwinVariants (x.withFields (before ++ f :: after))
      (x.withFields (before ++ f.restated options metadata forceOptional :: after)) where
  name := rfl
  skip := rfl
  hasPayload := rfl
  description := rfl
  payload _ :=
    (twin_object _ (twin_lowerFields before after f options metadata forceOptional [])).imp
      fun _ _ _ => trivial
  untagged _ :=
    (twin_object _ (twin_lowerFields before after f options metadata forceOptional [])).imp
      fun _ _ h => ⟨(congrArg Schema.kind h.rest).symm, h.properties.names_eq⟩

theorem twin_tagged {s t : Schema} (h : SameFace s t) (tagKey : String) (tag : Schema)
    (description : Option String) (path : DescriptorPath) :
    Twin (fun _ _ => True) (Variant.tagged tagKey tag description s path)
      (Variant.tagged tagKey tag description t path) := by
  have hclash :
      (Table.get? tagKey s.properties).isSome = (Table.get? tagKey t.properties).isSome := by
    rw [Bool.eq_iff_iff, Table.get?_isSome_iff, Table.get?_isSome_iff, h.2]
  rw [Variant.tagged, Variant.tagged, h.1, hclash]
  split
  · exact .pure trivial
  · split
    · exact .error
    · exact .pure trivial

theorem twin_lowerBranch {x y : Variant Descriptor} (h : TwinVariants x y)
    (path : DescriptorPath) :
    Twin (fun _ _ => True) (lowerBranch path x) (lowerBranch path y) := by
  rw [lowerBranch, lowerBranch, h.name, h.hasPayload]
  split
  · exact h.payload _
  · exact .pure trivial

theorem twin_lowerTagged {x y : Variant Descriptor} (h : TwinVariants x y) (enum tagKey : String)
    (path : DescriptorPath) :
    Twin (fun _ _ => True) (lowerTagged enum tagKey path x) (lowerTagged enum tagKey path y) := by
  rw [lowerTagged, lowerTagged, h.name, h.description]
  exact (h.untagged _).bind fun s t hst => twin_tagged hst _ _ _ _

section Enum

variable {xs ys : List (Variant Descriptor)}

/-- Variants that are lowered in step one by one are so one after the other. -/
theorem twin_sequence {f : Variant Descriptor → Lowering Schema}
    (hf : ∀ x y, TwinVariants x y → Twin (fun _ _ => True) (f x) (f y))
    (h : List.Forall₂ TwinVariants xs ys) :
    Twin (List.Forall₂ fun _ _ => True) (Journal.sequence (xs.map f))
      (Journal.sequence (ys.map f)) :=
  .sequence (List.rel_map (fun x y hxy => hf x y hxy) h)

theorem faces_of_twins (h : List.Forall₂ TwinVariants xs ys) :
    xs.map (fun x => (x.name, x.hasPayload)) = ys.map fun y => (y.name, y.hasPayload) := by
  induction h with
  | nil => rfl
  | cons hxy _ ih => rw [List.map_cons, List.map_cons, hxy.name, hxy.hasPayload, ih]

/-- **Enums of variants that are lowered in step are.** -/
theorem twin_enum (h : List.Forall₂ TwinVariants xs ys) (name : String) (tagging : Tagging)
    (description : Option String) (embed : Bool) (path : DescriptorPath) :
    Twin (fun _ _ => True) ((enum name tagging xs description).lower embed path)
      ((enum name tagging ys description).lower embed path) := by
  have hlive : List.Forall₂ TwinVariants (Variant.serialized xs) (Variant.serialized ys) :=
    List.rel_filter (fun x y hxy => by simp only [hxy.skip]) h
  have hfaces := faces_of_twins hlive
  have hnames : (Variant.serialized xs).map (·.name) = (Variant.serialized ys).map (·.name) := by
    simpa [Function.comp_def] using congrArg (List.map (·.1)) hfaces
  have hempty : (Variant.serialized xs).isEmpty = (Variant.serialized ys).isEmpty := by
    simpa using congrArg List.isEmpty hfaces
  have hany : (Variant.serialized xs).any (·.hasPayload) =
      (Variant.serialized ys).any (·.hasPayload) := by
    simpa [Function.comp_def] using congrArg (List.any · (·.2)) hfaces
  have hpayloads : ∀ path : DescriptorPath, Twin (List.Forall₂ fun _ _ => True)
      (lowerPayloads path xs) (lowerPayloads path ys) := by
    intro path
    rw [lowerPayloads_eq_sequence, lowerPayloads_eq_sequence]
    refine twin_sequence (fun x y hxy => ?_)
      (List.rel_filter (fun x y hxy => by simp only [hxy.hasPayload]) hlive)
    rw [hxy.name]
    exact hxy.payload _
  rw [lower, lower, Variant.check, Variant.check, hempty, hnames]
  refine .bind (.refl (fun _ => rfl) _) fun _ _ _ => ?_
  dsimp only
  rw [hany]
  split
  · exact .pure trivial
  · cases tagging with
    | external =>
      dsimp only
      rw [lowerExternal_eq_sequence, lowerExternal_eq_sequence]
      exact (twin_sequence (fun x y hxy => twin_lowerBranch hxy _) hlive).map fun _ _ _ => trivial
    | internal tagKey =>
      dsimp only
      rw [lowerInternal_eq_sequence, lowerInternal_eq_sequence]
      exact (twin_sequence (fun x y hxy => twin_lowerTagged hxy _ _ _) hlive).map
        fun _ _ _ => trivial
    | adjacent tagKey contentKey =>
      exact .bind (.refl (fun _ => rfl) _) fun _ _ _ => (hpayloads _).map fun _ _ _ => trivial
    | untagged =>
      -- The failure names the first bare variant, so both enums must find the same name.
      dsimp only
      have hbare : ((Variant.serialized xs).find? (!·.hasPayload)).map (·.name) =
          ((Variant.serialized ys).find? (!·.hasPayload)).map (·.name) := by
        simpa [List.find?_map, Function.comp_def] using
          congrArg (fun faces => (faces.find? (!·.2)).map (·.1)) hfaces
      generalize (Variant.serialized xs).find? (!·.hasPayload) = bare at hbare ⊢
      generalize (Variant.serialized ys).find? (!·.hasPayload) = bare' at hbare ⊢
      obtain _ | x := bare <;> obtain _ | y := bare'
      · exact (hpayloads _).map fun _ _ _ => trivial
      · cases hbare
      · cases hbare
      · have hname : x.name = y.name := Option.some.inj hbare
        dsimp only
        rw [hname]
        exact .error

end Enum

end Descriptor

namespace StructureSite

variable {site : StructureSite} {path : DescriptorPath}

/-- Wherever fields stand, the object made of them shows each. -/
theorem shown_of_lower {before after : List (Field Descriptor)} {f : Field Descriptor} {s : Schema}
    (h : (site.lower path (before ++ f :: after)).outcome = .ok s) : f.Shown before after s := by
  obtain ⟨description, p, hlower⟩ := site.exists_lower_eq path
  rw [hlower] at h
  obtain ⟨q, hq, rfl⟩ := Journal.run_bind_pure.mp (Journal.run_of_outcome h)
  exact Descriptor.shown_of_lowerFields description hq

/-- **Other words of a field are lowered in step**, wherever the fields stand; those of a skipped
field are not looked at. -/
theorem twin_restated (site : StructureSite) (path : DescriptorPath)
    (before after : List (Field Descriptor)) (f : Field Descriptor) (options : ℕ)
    (metadata : Metadata) (forceOptional : Bool) :
    Twin (fun s t => s.DifferAt f.name t ∧ (f.skip = true → t = s))
      (site.lower path (before ++ f :: after))
      (site.lower path (before ++ f.restated options metadata forceOptional :: after)) := by
  obtain ⟨description, p, hlower⟩ := site.exists_lower_eq path
  rw [hlower, hlower]
  cases hskip : f.skip with
  | false =>
    exact (Descriptor.twin_object description
      (Descriptor.twin_lowerFields before after f options metadata forceOptional [])).imp
        fun s t hst => ⟨hst, fun htrue => nomatch htrue⟩
  | true =>
    have hskip' : (f.restated options metadata forceOptional).skip = true := hskip
    rw [Descriptor.lowerFields_skip hskip, Descriptor.lowerFields_skip hskip']
    exact .refl (fun s => ⟨.refl f.name s, fun _ => rfl⟩) _

end StructureSite

/-- **What a field says about its value stays with the field.**  Wherever the fields of a structure
stand, on every registry: a field with other metadata, with another say on its absence and with its
type in any number of further `optional` leaves the same entries in the same order and ends in the
same failure or in an object that differs at most in the property of this field and in whether its
name is required, both as the field says (`Field.Shown`).  So do, but for the schema they end in,
the enums that such a structure is a variant of. -/
theorem carryOut_restated (before after : List (Field Descriptor)) (f : Field Descriptor)
    (options : ℕ) (metadata : Metadata) (forceOptional : Bool) (r : Registry)
    (path : DescriptorPath) :
    (∀ site : StructureSite,
      Registry.InStep
        (fun s t => s.DifferAt f.name t ∧ (f.skip = true → t = s) ∧ f.Shown before after s ∧
          (f.restated options metadata forceOptional).Shown before after t)
        (r.carryOut (site.lower path (before ++ f :: after)))
        (r.carryOut
          (site.lower path (before ++ f.restated options metadata forceOptional :: after)))) ∧
      ∀ (x : Variant Descriptor) (xs ys : List (Variant Descriptor)) (name : String)
        (tagging : Tagging) (description : Option String) (embed : Bool),
        Registry.InStep (fun _ _ => True)
          (r.carryOut ((Descriptor.enum name tagging
            (xs ++ x.withFields (before ++ f :: after) :: ys) description).lower embed path))
          (r.carryOut ((Descriptor.enum name tagging
            (xs ++ x.withFields (before ++ f.restated options metadata forceOptional :: after) ::
              ys) description).lower embed path)) := by
  constructor
  · intro site
    refine Registry.inStep_carryOut ?_ r
    refine (site.twin_restated path before after f options metadata forceOptional).values.imp ?_
    rintro s t ⟨⟨hdiffer, hskip⟩, hs, ht⟩
    exact ⟨hdiffer, hskip, StructureSite.shown_of_lower hs, StructureSite.shown_of_lower ht⟩
  · intro x xs ys name tagging description embed
    have hsame : ∀ zs, List.Forall₂ Descriptor.TwinVariants zs zs := fun zs =>
      List.forall₂_same.mpr fun z _ => .refl z
    have htwins := List.rel_append (hsame xs) (.cons
      (Descriptor.twinVariants_restated x before after f options metadata forceOptional) (hsame ys))
    exact Registry.inStep_carryOut
      (Descriptor.twin_enum htwins name tagging description embed path) r

end OpenApi
