import OpenApi.Proofs.Descriptor.Walk
import OpenApi.Proofs.Lowering.Definitions
import OpenApi.Proofs.Lowering.Runs

/-!
# Proofs/Lowering/Visits — the definitions of a lowering follow the walk

    uses           u₁        u₂       …  uₙ
    definitions    defs₁ ++  defs₂ ++ …  defsₙ      (++ its own, if it is a stored type)

A lowering that ends well lowers the uses of its descriptor, each once and in order, and puts their
definitions one behind the other (`lowers_uses`).  As only a stored type adds one of its own, behind
those below it, the definitions are those of the stored types of the walk (`definedBy_of_lower`).
-/

namespace OpenApi

namespace Journal

/-! ## Journals that are made of others -/

variable {σ ε α β κ τ : Type}

/-- **The steps of a journal that ends well** are those of some parts, one after the other. -/
def Visits (R : κ → List σ → Prop) (us : List κ) (j : Journal σ ε α) : Prop :=
  ∀ ss a, j.Run ss a → ∃ parts, List.Forall₂ R us parts ∧ ss = parts.flatten

namespace Visits

variable {R : κ → List σ → Prop} {us vs : List κ}

theorem of_steps {j : Journal σ ε α} (h : j.steps = []) : Visits R [] j :=
  fun _ _ hj => ⟨[], .nil, hj.steps.symm.trans h⟩

theorem pure (a : α) : Visits R [] (Pure.pure a : Journal σ ε α) := of_steps rfl

theorem fail (e : ε) : Visits R us (Journal.fail e : Journal σ ε α) :=
  fun _ _ hj => absurd hj run_fail

theorem bind {j : Journal σ ε α} {f : α → Journal σ ε β} (hj : Visits R us j)
    (hf : ∀ a, Visits R vs (f a)) : Visits R (us ++ vs) (j >>= f) := by
  intro ss b hrun
  obtain ⟨ss₁, a, ss₂, h₁, h₂, rfl⟩ := run_bind.mp hrun
  obtain ⟨parts₁, hus, rfl⟩ := hj ss₁ a h₁
  obtain ⟨parts₂, hvs, rfl⟩ := hf a ss₂ b h₂
  exact ⟨parts₁ ++ parts₂, List.rel_append hus hvs, List.flatten_append.symm⟩

/-- What comes before the first part asks for nothing. -/
theorem after {j : Journal σ ε α} {f : α → Journal σ ε β} (hj : j.steps = [])
    (hf : ∀ a, Visits R us (f a)) : Visits R us (j >>= f) :=
  (of_steps hj).bind hf

/-- What comes behind the last part asks for nothing. -/
theorem andThen {j : Journal σ ε α} {f : α → Journal σ ε β} (hj : Visits R us j)
    (hf : ∀ a, (f a).steps = []) : Visits R us (j >>= f) := by
  rw [← List.append_nil us]
  exact hj.bind fun a => of_steps (hf a)

/-- **A sequence visits the parts of its journals.** -/
theorem sequence {parts : List τ} {uses : τ → List κ} {f : τ → Journal σ ε α}
    (h : ∀ t ∈ parts, Visits R (uses t) (f t)) :
    Visits R (parts.flatMap uses) (Journal.sequence (parts.map f)) := by
  induction parts with
  | nil => exact .pure []
  | cons t parts ih =>
    obtain ⟨ht, hts⟩ := List.forall_mem_cons.mp h
    rw [List.flatMap_cons]
    exact ht.bind fun a => (ih hts).andThen fun as => rfl

/-- A sequence visits its journals, if each is about one thing. -/
theorem sequence_map {parts : List τ} {use : τ → κ} {f : τ → Journal σ ε α}
    (h : ∀ t ∈ parts, Visits R [use t] (f t)) :
    Visits R (parts.map use) (Journal.sequence (parts.map f)) := by
  rw [List.map_eq_flatMap (f := use)]
  exact sequence h

end Visits

end Journal

namespace Descriptor

/-! ## Lowerings -/

/-- What a use defines where it is lowered. -/
def RunsAs (u : Use) (defs : List Definition) : Prop :=
  ∃ path s, (u.2.lower u.1 path).Run defs s

/-- **A lowering is made of those of some uses.** -/
abbrev Lowers {α : Type} (us : List Use) (l : Lowering α) : Prop := l.Visits RunsAs us

variable {embed : Bool} {path : DescriptorPath}

theorem lowers_self (embed : Bool) (path : DescriptorPath) (d : Descriptor) :
    Lowers [(embed, d)] (d.lower embed path) :=
  fun defs s h => ⟨[defs], .cons ⟨path, s, h⟩ .nil, (List.append_nil defs).symm⟩

/-- Parts that are lowered with their positions are used without them. -/
theorem map_fst_zipIdx {τ κ : Type} (f : τ → κ) (parts : List τ) :
    ((parts.zipIdx 0).map fun p => f p.1) = parts.map f :=
  List.map_map.symm.trans (congrArg (List.map f) (List.zipIdx_map_fst 0 parts))

theorem lowers_lowerItems (path : DescriptorPath) (items : List (TupleItem Descriptor)) :
    Lowers (itemUses embed items) (lowerItems embed path 0 items) := by
  have huses : itemUses embed items = (items.zipIdx 0).map fun i => (embed, i.1.type) := by
    rw [itemUses, ← map_fst_zipIdx]
  rw [lowerItems_eq_sequence, huses]
  exact .sequence_map fun i _ => (lowers_self _ _ _).andThen fun s => rfl

theorem lowers_lowerMembers (path : DescriptorPath) (mode : Composition)
    (members : List Descriptor) :
    Lowers (members.map fun m => (false, m)) (lowerMembers path mode 0 members) := by
  rw [lowerMembers_eq_sequence, ← map_fst_zipIdx]
  exact .sequence_map fun m _ => lowers_self _ _ _

theorem lowers_lowerFields (path : DescriptorPath) (fields : List (Field Descriptor))
    (seen : List String) :
    Lowers (fieldUses embed fields) (lowerFields embed path seen fields) := by
  induction fields generalizing seen with
  | nil => exact .pure _
  | cons f fields ih =>
    obtain ⟨name, type, metadata, forceOptional, skip, inline⟩ := f
    rw [lowerFields, fieldUses_cons]
    split
    · exact ih seen
    · split
      · exact .fail _
      · exact (lowers_self _ _ _).bind fun s => (ih _).andThen fun p => rfl

theorem lowers_object {us : List Use} (description : Option String)
    {fields : Lowering (List (String × Schema) × List String)} (h : Lowers us fields) :
    Lowers us (Lowering.object description fields) := by
  rw [Lowering.object]
  exact h.andThen fun p => rfl

theorem lowers_tuple {us : List Use} (path : DescriptorPath) (description : Option String)
    (nonempty : Bool) {members : Lowering (List Schema)} (h : Lowers us members) :
    Lowers us (Lowering.tuple path description nonempty members) := by
  rw [Lowering.tuple]
  exact .after (Lowering.steps_require _ _ _) fun _ => h.andThen fun ss => rfl

/-! ## Sum types -/

/-- A payload is made of what the variant uses, unless the tagging embeds it. -/
theorem lowers_lowerPayload {tagging : Tagging} (htagging : tagging.embedsSingle = false)
    (path : DescriptorPath) {x : Variant Descriptor} (hx : x.hasPayload = true) :
    Lowers (variantUses tagging x) (lowerPayload path x) := by
  have hsingle : ∀ b : Bool, (b || tagging.embedsSingle) = b := by simp [htagging]
  obtain ⟨name, style, items, fields, description, skip, inline⟩ := x
  cases style with
  | unit => cases hx
  | struct =>
    rw [variantUses_struct rfl, lowerPayload]
    exact lowers_object _ (lowers_lowerFields _ _ _)
  | newtype =>
    cases items with
    | nil => exact .fail _
    | cons item items =>
      rw [variantUses_single (by simp) rfl, hsingle, lowerPayload.eq_def]
      exact (lowers_self _ _ _).andThen fun s => rfl
  | tuple =>
    match items with
    | [] => exact .fail _
    | [item] =>
      rw [variantUses_single (by simp) rfl, hsingle, lowerPayload.eq_def]
      exact (lowers_self _ _ _).andThen fun s => rfl
    | item :: item' :: items =>
      rw [variantUses_of_length_ne (by simp) (by simp [Variant.payloadItems]), lowerPayload.eq_def]
      exact lowers_tuple _ _ _ (lowers_lowerItems _ _)

/-- What a tag joins is made of what the variant uses, a single payload embedded. -/
theorem lowers_lowerUntagged (tagKey : String) (path : DescriptorPath) (x : Variant Descriptor) :
    Lowers (variantUses (.internal tagKey) x) (lowerUntagged path x) := by
  have hsingle : ∀ b : Bool, (b || (Tagging.internal tagKey).embedsSingle) = true := Bool.or_true
  have hjoin : ∀ s, (Variant.joinable s path).steps = [] := fun s =>
    Variant.steps_joinable s path
  obtain ⟨name, style, items, fields, description, skip, inline⟩ := x
  cases style with
  | unit => exact .pure _
  | struct =>
    rw [variantUses_struct rfl, lowerUntagged]
    exact lowers_object _ (lowers_lowerFields _ _ _)
  | newtype =>
    cases items with
    | nil => exact .fail _
    | cons item items =>
      rw [variantUses_single (by simp) rfl, hsingle, lowerUntagged]
      exact (lowers_self _ _ _).andThen hjoin
  | tuple =>
    match items with
    | [] => exact .fail _
    | [item] =>
      rw [variantUses_single (by simp) rfl, hsingle, lowerUntagged]
      exact (lowers_self _ _ _).andThen hjoin
    | item :: item' :: items => exact .fail _

/-- What has no parts may be left out. -/
theorem flatMap_filter {τ κ : Type} {keep : τ → Bool} {parts : List τ} {uses : τ → List κ}
    (h : ∀ t ∈ parts, keep t = false → uses t = []) :
    (parts.filter keep).flatMap uses = parts.flatMap uses := by
  induction parts with
  | nil => rfl
  | cons t parts ih =>
    obtain ⟨ht, hts⟩ := List.forall_mem_cons.mp h
    rw [List.filter_cons, List.flatMap_cons]
    split
    · rw [List.flatMap_cons, ih hts]
    · next hk => rw [ht (Bool.eq_false_iff.mpr hk), List.nil_append, ih hts]

theorem lowers_lowerPayloads {tagging : Tagging} (htagging : tagging.embedsSingle = false)
    (path : DescriptorPath) (variants : List (Variant Descriptor)) :
    Lowers ((Variant.serialized variants).flatMap (variantUses tagging))
      (lowerPayloads path variants) := by
  have hbare : ((Variant.serialized variants).filter (·.hasPayload)).flatMap (variantUses tagging) =
      (Variant.serialized variants).flatMap (variantUses tagging) :=
    flatMap_filter fun x _ hx => variantUses_of_bare hx
  rw [lowerPayloads_eq_sequence, ← hbare]
  exact .sequence fun x hx => lowers_lowerPayload htagging _ (List.mem_filter.mp hx).2

/-- **Every tagging lowers the payloads of the variants in order.** -/
theorem lowers_enum (path : DescriptorPath) (name : String) (tagging : Tagging)
    (variants : List (Variant Descriptor)) (description : Option String) :
    Lowers ((enum name tagging variants description).uses embed)
      ((enum name tagging variants description).lower embed path) := by
  rw [lower, uses]
  refine .after (Variant.steps_check _ _ _) fun _ => ?_
  dsimp only
  split
  · next hbare =>
    have hnone : (Variant.serialized variants).flatMap (variantUses tagging) = [] :=
      List.flatMap_eq_nil_iff.mpr fun x hx => variantUses_of_bare (by simp_all)
    rw [hnone]
    exact .pure _
  · cases tagging with
    | external =>
      dsimp only
      rw [lowerExternal_eq_sequence]
      refine Journal.Visits.andThen (.sequence fun x hx => ?_) fun ss => rfl
      rw [lowerBranch]
      split
      · next hx => exact lowers_lowerPayload rfl _ hx
      · next hx =>
        rw [variantUses_of_bare (Bool.eq_false_iff.mpr hx)]
        exact .pure _
    | internal tagKey =>
      dsimp only
      rw [lowerInternal_eq_sequence]
      exact Journal.Visits.andThen (.sequence fun x hx =>
        (lowers_lowerUntagged tagKey _ x).andThen fun s => Variant.steps_tagged _ _ _ s _)
        fun ss => rfl
    | adjacent tagKey contentKey =>
      exact .after (Lowering.steps_require _ _ _) fun _ =>
        (lowers_lowerPayloads rfl _ _).andThen fun ss => rfl
    | untagged =>
      dsimp only
      split
      · exact .fail _
      · exact (lowers_lowerPayloads rfl _ _).andThen fun ss => rfl

/-! ## Descriptors -/

/-- **A lowering is made of those of the uses**, if the descriptor is not a named type. -/
theorem lowers_uses {d : Descriptor} (hd : ¬ d.IsNamed) (embed : Bool) (path : DescriptorPath) :
    Lowers (d.uses embed) (d.lower embed path) := by
  cases d with
  | primitive kind format => exact .pure _
  | array element => exact (lowers_self _ _ _).andThen fun s => rfl
  | optional inner => exact (lowers_self _ _ _).andThen fun s => rfl
  | map value => exact (lowers_self _ _ _).andThen fun s => rfl
  | tuple items => exact lowers_tuple _ _ _ (lowers_lowerItems _ _)
  | any => exact .pure _
  | composite mode members =>
    exact .after (Lowering.steps_require _ _ _) fun _ =>
      (lowers_lowerMembers _ _ _).andThen fun ss => rfl
  | object name fields => exact lowers_object _ (lowers_lowerFields _ _ _)
  | enum name tagging variants description => exact lowers_enum _ _ _ _ _
  | named name underlying description format sample inline => exact absurd trivial hd
  | reference name => exact .pure _

/-- **What a descriptor that is lowered is made of is lowered, too.** -/
theorem outcome_of_mem_uses {embed : Bool} {d : Descriptor} {path : DescriptorPath} {s : Schema}
    (h : (d.lower embed path).outcome = .ok s) {u : Use} (hu : u ∈ d.uses embed) :
    ∃ q t, (u.2.lower u.1 q).outcome = .ok t := by
  by_cases hd : d.IsNamed
  · cases d with
    | named name underlying description format sample inline =>
      obtain rfl := List.mem_singleton.mp hu
      obtain ⟨_, i, _, hi, -⟩ := run_named.mp (Journal.run_of_outcome h)
      exact ⟨_, i, hi.outcome⟩
    | _ => cases hd
  · obtain ⟨parts, hparts, -⟩ := lowers_uses hd embed path _ s (Journal.run_of_outcome h)
    obtain ⟨n, hn, rfl⟩ := List.mem_iff_getElem.mp hu
    obtain ⟨q, t, ht⟩ := (List.forall₂_iff_get.mp hparts).2 n hn
      ((List.forall₂_iff_get.mp hparts).1 ▸ hn)
    exact ⟨q, t, ht.outcome⟩

/-- **Whatever is walked through is lowered**, if the walk starts at something that is. -/
theorem outcome_of_mem_walk {embed : Bool} {d : Descriptor} {path : DescriptorPath} {s : Schema}
    (h : (d.lower embed path).outcome = .ok s) {u : Use} (hu : u ∈ d.walk embed) :
    ∃ q t, (u.2.lower u.1 q).outcome = .ok t := by
  rw [walk_eq, List.mem_append, List.mem_flatMap, List.mem_singleton] at hu
  obtain ⟨c, hc, hu⟩ | rfl := hu
  · obtain ⟨q, t, ht⟩ := outcome_of_mem_uses h hc
    exact outcome_of_mem_walk ht hu
  · exact ⟨path, s, h⟩
termination_by sizeOf d
decreasing_by exact sizeOf_uses hc

/-- **What is defined for a stored type** — the schema of the type under its name, with what the
name says about it. -/
def DefinedBy (t : StoredType) (x : Definition) : Prop :=
  x.name = t.name ∧ ∃ path content, (t.underlying.lower false path).outcome = .ok content ∧
    x.schema = content.withMetadata t.metadata

/-- What some uses define is defined by the stored types of their walks. -/
theorem definedBy_of_lowers {α : Type} {us : List Use} {l : Lowering α} {defs : List Definition}
    {a : α} (hl : Lowers us l) (h : l.Run defs a)
    (hus : ∀ u ∈ us, ∀ path defs s, (u.2.lower u.1 path).Run defs s →
      List.Forall₂ DefinedBy ((u.2.walk u.1).filterMap Use.stored?) defs) :
    List.Forall₂ DefinedBy ((us.flatMap fun u => u.2.walk u.1).filterMap Use.stored?) defs := by
  obtain ⟨parts, hparts, rfl⟩ := hl defs a h
  rw [List.filterMap_flatMap, List.flatMap_def]
  refine List.rel_flatten (List.forall₂_map_left_iff.mpr ?_)
  refine ((List.forall₂_and_left us parts).mpr ⟨hus, hparts⟩).imp ?_
  rintro u defs ⟨hu, path, s, hrun⟩
  exact hu path defs s hrun

/-- **A lowering that ends well defines the stored types of the walk**, each once and in order. -/
theorem definedBy_of_lower {embed : Bool} {d : Descriptor} {path : DescriptorPath}
    {defs : List Definition} {s : Schema} (h : (d.lower embed path).Run defs s) :
    List.Forall₂ DefinedBy ((d.walk embed).filterMap Use.stored?) defs := by
  have ih : ∀ u ∈ d.uses embed, ∀ path defs s, (u.2.lower u.1 path).Run defs s →
      List.Forall₂ DefinedBy ((u.2.walk u.1).filterMap Use.stored?) defs :=
    fun u hu path defs s hrun => definedBy_of_lower hrun
  rw [walk_eq, List.filterMap_append, List.filterMap_cons, List.filterMap_nil]
  cases d with
  | named name underlying description format sample inline =>
    obtain ⟨defs₁, content, t, hi, rfl, hstored⟩ := run_named.mp h
    have hbelow := definedBy_of_lowers (lowers_self _ _ _) hi ih
    rw [Use.stored?_named]
    obtain ⟨hembed, rfl, -⟩ | ⟨hembed, rfl, -⟩ := hstored
    · rw [if_pos hembed, List.append_nil]
      exact hbelow
    · rw [if_neg (Bool.eq_false_iff.mp hembed)]
      obtain ⟨rfl, rfl⟩ := Bool.or_eq_false_iff.mp hembed
      exact List.rel_append hbelow (.cons ⟨rfl, _, content, hi.outcome, rfl⟩ .nil)
  | _ =>
    rw [Use.stored?_of_not_isNamed id, List.append_nil]
    exact definedBy_of_lowers (lowers_uses id _ _) h ih
termination_by sizeOf d
decreasing_by exact sizeOf_uses hu

end Descriptor

end OpenApi
