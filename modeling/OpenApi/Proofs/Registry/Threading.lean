import OpenApi.Proofs.Lowering.Definitions
import OpenApi.Proofs.Registry.Independence

/-!
# Proofs/Registry/Threading — synthesis with the registry in hand

    d ──── lower ────▸ definitions, schema
    │                          │
    synthesizeOn r           carryOut r          the same (`carriesTo_lower`)
    ▾                          ▾
    registry, schema      registry, schema

Synthesis can be read in two ways.  Here it has the registry in hand: it hands it from part to part
and stores the schema of a named type at once, before it goes on to what comes after the type
(`Descriptor.synthesizeOn`).  `Descriptor.lower` has no registry: it notes down what is to be
stored, and all of it is stored in the end.  Both leave the same registry behind and end in the same
schema or the same failure, on every registry; so what is stored has no say in the schema of a
descriptor, however it is handed around.
-/

namespace OpenApi

/-! ## Handing the registry on -/

/-- A synthesis with the registry in hand: the registry that it leaves behind, and its outcome. -/
def Synthesis (α : Type) : Type := Registry → Registry × Except SynthesisError α

namespace Synthesis

variable {α β : Type}

protected def pure (a : α) : Synthesis α := fun r => (r, .ok a)

/-- One synthesis after another, on the registry that the first one leaves behind. -/
protected def bind (x : Synthesis α) (f : α → Synthesis β) : Synthesis β := fun r =>
  match x r with
  | (r', .error e) => (r', .error e)
  | (r', .ok a) => f a r'

instance : Monad Synthesis where
  pure := Synthesis.pure
  bind := Synthesis.bind

/-- An outcome that the registry has no part in. -/
def ofOutcome (outcome : Except UnsupportedShape α) : Synthesis α := fun r =>
  (r, outcome.mapError .shape)

/-- The failure at a path. -/
def unsupported (path : DescriptorPath) (fault : ShapeFault) : Synthesis α :=
  ofOutcome (.error ⟨path, fault⟩)

/-- A failure unless the condition holds. -/
def require (condition : Bool) (path : DescriptorPath) (fault : ShapeFault) : Synthesis Unit :=
  if condition then pure () else unsupported path fault

/-- Stores a schema under a name, unless the registry refuses. -/
def register (name : String) (schema : Schema) : Synthesis Unit := fun r =>
  match r.register name schema with
  | .ok r' => (r', .ok ())
  | .error e => (r, .error (.registry e))

/-- A tuple of some members: an array whose elements fit exactly one of them. -/
def tuple (path : DescriptorPath) (description : Option String) (nonempty : Bool)
    (members : Synthesis (List Schema)) : Synthesis Schema := do
  require nonempty path .emptyTuple
  pure (Schema.array (Schema.composite .oneOf (← members) none) description)

/-- A structure of some properties, with the names of those that are required. -/
def object (description : Option String)
    (fields : Synthesis (List (String × Schema) × List String)) : Synthesis Schema := do
  let (properties, required) ← fields
  pure (Schema.object properties required description)

end Synthesis

/-! ## Descriptors -/

namespace Descriptor

mutual

/-- **The schema of a descriptor, with the registry in hand** — at a path, for a use site that
embeds named types or not. -/
def synthesizeOn (embed : Bool) (path : DescriptorPath) : Descriptor → Synthesis Schema
  | .primitive kind format => pure (Schema.primitive kind.word format)
  | .array element => do
    let items ← element.synthesizeOn false (path.enter "[]")
    pure (Schema.array items none)
  | .optional inner => do
    let schema ← inner.synthesizeOn embed path
    pure (schema.withMetadata { nullable := true })
  | .map value => do
    let schema ← value.synthesizeOn false (path.enter "{}")
    pure (Schema.mapOf schema none)
  | .tuple items => Synthesis.tuple path none (!items.isEmpty) (itemsOn false path 0 items)
  | .any => pure Schema.any
  | .composite mode members => do
    Synthesis.require (!members.isEmpty) path (.emptyComposition mode)
    let schemas ← membersOn path mode 0 members
    pure (Schema.composite mode schemas none)
  | .object name fields =>
    let path := if path = [] then (name.filter (· ≠ "")).toList else path
    Synthesis.object none (fieldsOn false path [] fields)
  | .enum name tagging variants description => do
    let path : DescriptorPath := if path = [] then [name] else path
    Synthesis.ofOutcome (Variant.check name variants path).outcome
    let live := Variant.serialized variants
    if !live.any (·.hasPayload) then
      pure (Schema.stringOf (live.map (·.name)) description)
    else
      match tagging with
      | .external => do
        let branches ← externalOn path variants
        pure (Variant.externalObject branches description)
      | .internal tagKey => do
        let branches ← internalOn name tagKey path variants
        pure (Schema.composite .oneOf branches description)
      | .adjacent tagKey contentKey => do
        Synthesis.require (tagKey ≠ contentKey) path .equalKeys
        let payloads ← payloadsOn path variants
        let tag := Variant.tagProperty name (live.map (·.name))
        pure (Variant.adjacentObject tagKey contentKey tag payloads description)
      | .untagged => do
        match live.find? (!·.hasPayload) with
        | some v => Synthesis.unsupported (path.enter v.name) .untaggedUnit
        | none => pure ()
        let branches ← payloadsOn path variants
        pure (Schema.composite .oneOf branches description)
  | .named name underlying description format sample inline => do
    let content ← underlying.synthesizeOn embed (path.enter name)
    let schema := content.withMetadata { description, format, sample }
    if embed || inline then pure schema
    else do
      Synthesis.register name schema
      pure (Schema.ref name)
  | .reference name => pure (Schema.ref name)

/-- The members of a composition. -/
def membersOn (path : DescriptorPath) (mode : Composition) (index : Nat) :
    List Descriptor → Synthesis (List Schema)
  | [] => pure []
  | member :: members => do
    let schema ← member.synthesizeOn false (path.enter (mode.word ++ "[" ++ toString index ++ "]"))
    let schemas ← membersOn path mode (index + 1) members
    pure (schema :: schemas)

/-- The items of a tuple. -/
def itemsOn (embed : Bool) (path : DescriptorPath) (index : Nat) :
    List (TupleItem Descriptor) → Synthesis (List Schema)
  | [] => pure []
  | ⟨type, description⟩ :: items => do
    let schema ← type.synthesizeOn embed (path.enter ("[" ++ toString index ++ "]"))
    let schemas ← itemsOn embed path (index + 1) items
    pure (schema.withMetadata { description } :: schemas)

/-- The properties of the serialized fields and the names of the required ones, given the names of
the fields before. -/
def fieldsOn (embed : Bool) (path : DescriptorPath) (seen : List String) :
    List (Field Descriptor) → Synthesis (List (String × Schema) × List String)
  | [] => pure ([], [])
  | ⟨name, type, metadata, forceOptional, skip, inline⟩ :: fields =>
    if skip then fieldsOn embed path seen fields
    else if name ∈ seen then Synthesis.unsupported path (.repeatedField name)
    else do
      let schema ← type.synthesizeOn (embed || inline) (path.enter name)
      let (properties, required) ← fieldsOn embed path (name :: seen) fields
      pure ((name, schema.withMetadata metadata) :: properties,
        if forceOptional then required else name :: required)

/-- The payload of a variant, at the variant's own path. -/
def payloadOn (path : DescriptorPath) : Variant Descriptor → Synthesis Schema
  | ⟨_, .struct, _, fields, description, _, inline⟩ =>
    Synthesis.object description (fieldsOn inline path [] fields)
  | ⟨_, _, [], _, _, _, _⟩ => Synthesis.unsupported path .emptyPayload
  | ⟨_, .newtype, ⟨type, note⟩ :: _, _, description, _, inline⟩
  | ⟨_, _, [⟨type, note⟩], _, description, _, inline⟩ => do
    let schema ← type.synthesizeOn inline path
    pure (schema.withMetadata { description := nonEmptyOr description note })
  | ⟨_, _, items, _, description, _, inline⟩ =>
    Synthesis.tuple path description true (itemsOn inline path 0 items)

/-- The payloads of the serialized variants that have one. -/
def payloadsOn (path : DescriptorPath) : List (Variant Descriptor) → Synthesis (List Schema)
  | [] => pure []
  | v :: vs =>
    if v.skip || !v.hasPayload then payloadsOn path vs
    else do
      let schema ← payloadOn (path.enter v.name) v
      let schemas ← payloadsOn path vs
      pure (schema :: schemas)

/-- The branches of an externally tagged enum: the payload, or the bare name. -/
def externalOn (path : DescriptorPath) : List (Variant Descriptor) → Synthesis (List Schema)
  | [] => pure []
  | v :: vs =>
    if v.skip then externalOn path vs
    else do
      let schema ←
        if v.hasPayload then payloadOn (path.enter v.name) v
        else pure (Schema.stringOf [v.name] v.description)
      let schemas ← externalOn path vs
      pure (schema :: schemas)

/-- What the tag of an internally tagged variant joins. -/
def untaggedOn (path : DescriptorPath) : Variant Descriptor → Synthesis Schema
  | ⟨_, .unit, _, _, _, _, _⟩ => pure (Schema.object [] [] none)
  | ⟨_, .struct, _, fields, _, _, inline⟩ =>
    Synthesis.object none (fieldsOn inline path [] fields)
  | ⟨_, .newtype, ⟨type, _⟩ :: _, _, _, _, _⟩
  | ⟨_, .tuple, [⟨type, _⟩], _, _, _, _⟩ => do
    let payload ← type.synthesizeOn true path
    Synthesis.ofOutcome (Variant.joinable payload path).outcome
  | ⟨_, .newtype, [], _, _, _, _⟩ => Synthesis.unsupported path .noItem
  | ⟨_, .tuple, _, _, _, _, _⟩ => Synthesis.unsupported path .tuplePayload

/-- The branches of an internally tagged enum. -/
def internalOn (enum tagKey : String) (path : DescriptorPath) :
    List (Variant Descriptor) → Synthesis (List Schema)
  | [] => pure []
  | v :: vs =>
    if v.skip then internalOn enum tagKey path vs
    else do
      let payload ← untaggedOn (path.enter v.name) v
      let schema ← Synthesis.ofOutcome (Variant.tagged tagKey (Variant.tagProperty enum [v.name])
        v.description payload (path.enter v.name)).outcome
      let schemas ← internalOn enum tagKey path vs
      pure (schema :: schemas)

end

end Descriptor

/-! ## Storing at once, or in the end -/

/-- **A lowering carries to a synthesis** — on every registry, to store its definitions in the end
comes to the same as the synthesis. -/
def Lowering.CarriesTo {α : Type} (l : Lowering α) (x : Synthesis α) : Prop :=
  ∀ r : Registry, r.carryOut l = x r

namespace Lowering

variable {α β : Type} {path : DescriptorPath}

theorem carriesTo_pure (a : α) : CarriesTo (pure a) (pure a) := fun _ => rfl

theorem CarriesTo.bind {l : Lowering α} {x : Synthesis α} {f : α → Lowering β}
    {g : α → Synthesis β} (h : l.CarriesTo x) (hf : ∀ a, (f a).CarriesTo (g a)) :
    (l >>= f).CarriesTo (x >>= g) := by
  intro r
  rw [Registry.carryOut_bind, h r]
  change _ = Synthesis.bind x g r
  rw [Synthesis.bind]
  obtain ⟨r', e | a⟩ := x r
  · rfl
  · exact hf a r'

/-- What is made of the value alone is the same. -/
theorem CarriesTo.map {l : Lowering α} {x : Synthesis α} (h : l.CarriesTo x) (f : α → β) :
    (l >>= fun a => pure (f a)).CarriesTo (x >>= fun a => pure (f a)) :=
  h.bind fun _ => carriesTo_pure _

/-- **A definition is stored at once.** -/
theorem carriesTo_define (name : String) (schema : Schema) :
    (define name schema).CarriesTo (Synthesis.register name schema) := by
  intro r
  rw [Registry.carryOut, define, Journal.tell, Registry.registerAll, Synthesis.register]
  cases r.register name schema <;> rfl

/-- A lowering without definitions leaves the registry as it is. -/
theorem carriesTo_ofOutcome {l : Lowering α} (h : l.steps = []) :
    l.CarriesTo (Synthesis.ofOutcome l.outcome) := by
  intro r
  rw [Registry.carryOut, h]
  rfl

theorem carriesTo_unsupported (fault : ShapeFault) :
    (unsupported path fault : Lowering α).CarriesTo (Synthesis.unsupported path fault) :=
  carriesTo_ofOutcome rfl

theorem carriesTo_require (condition : Bool) (fault : ShapeFault) :
    (require condition path fault).CarriesTo (Synthesis.require condition path fault) := by
  rw [require, Synthesis.require]
  split
  · exact carriesTo_pure _
  · exact carriesTo_unsupported fault

theorem carriesTo_tuple (description : Option String) (nonempty : Bool)
    {members : Lowering (List Schema)} {members' : Synthesis (List Schema)}
    (h : members.CarriesTo members') :
    (tuple path description nonempty members).CarriesTo
      (Synthesis.tuple path description nonempty members') := by
  rw [tuple, Synthesis.tuple]
  exact (carriesTo_require _ _).bind fun _ => h.map _

theorem carriesTo_object (description : Option String)
    {fields : Lowering (List (String × Schema) × List String)}
    {fields' : Synthesis (List (String × Schema) × List String)} (h : fields.CarriesTo fields') :
    (object description fields).CarriesTo (Synthesis.object description fields') := by
  rw [object, Synthesis.object]
  exact h.map _

end Lowering

open Lowering

namespace Descriptor

/-! ## Parts -/

/-- **A descriptor comes to the same in both ways**, wherever it stands. -/
def Carried (d : Descriptor) : Prop :=
  ∀ (embed : Bool) (path : DescriptorPath),
    (d.lower embed path).CarriesTo (d.synthesizeOn embed path)

variable {embed : Bool} {path : DescriptorPath}

theorem carriesTo_lowerMembers (mode : Composition) {members : List Descriptor}
    (h : ∀ m ∈ members, m.Carried) (index : Nat) :
    (lowerMembers path mode index members).CarriesTo (membersOn path mode index members) := by
  induction members generalizing index with
  | nil => exact carriesTo_pure _
  | cons m members ih =>
    obtain ⟨hm, hms⟩ := List.forall_mem_cons.mp h
    rw [lowerMembers, membersOn]
    exact (hm _ _).bind fun s => (ih hms _).map _

theorem carriesTo_lowerItems {items : List (TupleItem Descriptor)}
    (h : ∀ i ∈ items, i.type.Carried) (index : Nat) :
    (lowerItems embed path index items).CarriesTo (itemsOn embed path index items) := by
  induction items generalizing index with
  | nil => exact carriesTo_pure _
  | cons i items ih =>
    obtain ⟨type, description⟩ := i
    obtain ⟨hi, his⟩ := List.forall_mem_cons.mp h
    rw [lowerItems, itemsOn]
    exact (hi _ _).bind fun s => (ih his _).map _

theorem carriesTo_lowerFields {fields : List (Field Descriptor)}
    (h : ∀ f ∈ fields, f.type.Carried) (seen : List String) :
    (lowerFields embed path seen fields).CarriesTo (fieldsOn embed path seen fields) := by
  induction fields generalizing seen with
  | nil => exact carriesTo_pure _
  | cons f fields ih =>
    obtain ⟨name, type, metadata, forceOptional, skip, inline⟩ := f
    obtain ⟨hf, hfs⟩ := List.forall_mem_cons.mp h
    rw [lowerFields, fieldsOn]
    split
    · exact ih hfs seen
    · split
      · exact carriesTo_unsupported _
      · exact (hf _ _).bind fun s => (ih hfs _).map _

/-- The items and the fields of a variant come to the same in both ways. -/
def CarriedIn (x : Variant Descriptor) : Prop :=
  (∀ i ∈ x.items, i.type.Carried) ∧ ∀ f ∈ x.fields, f.type.Carried

theorem carriesTo_lowerPayload {x : Variant Descriptor} (h : CarriedIn x) :
    (lowerPayload path x).CarriesTo (payloadOn path x) := by
  obtain ⟨name, style, items, fields, description, skip, inline⟩ := x
  obtain ⟨hi, hf⟩ := h
  cases style with
  | struct => exact carriesTo_object _ (carriesTo_lowerFields hf _)
  | _ =>
    obtain _ | ⟨⟨type, note⟩, _ | ⟨second, items⟩⟩ := items
    · exact carriesTo_unsupported _
    · exact (hi _ List.mem_cons_self _ _).map _
    · -- of several items a newtype has the first one only
      first
      | exact (hi _ List.mem_cons_self _ _).map _
      | exact carriesTo_tuple _ _ (carriesTo_lowerItems hi _)

theorem carriesTo_lowerUntagged {x : Variant Descriptor} (h : CarriedIn x) :
    (lowerUntagged path x).CarriesTo (untaggedOn path x) := by
  obtain ⟨name, style, items, fields, description, skip, inline⟩ := x
  obtain ⟨hi, hf⟩ := h
  have joined (i : TupleItem Descriptor) (mem : i ∈ items) :
      (i.type.lower true path >>= fun s => Variant.joinable s path).CarriesTo
        (i.type.synthesizeOn true path >>= fun s =>
          Synthesis.ofOutcome (Variant.joinable s path).outcome) :=
    (hi i mem _ _).bind fun s => carriesTo_ofOutcome (Variant.steps_joinable s _)
  cases style with
  | unit => exact carriesTo_pure _
  | struct => exact carriesTo_object _ (carriesTo_lowerFields hf _)
  | newtype =>
    obtain _ | ⟨item, items⟩ := items
    · exact carriesTo_unsupported _
    · exact joined item List.mem_cons_self
  | tuple =>
    obtain _ | ⟨item, _ | ⟨second, items⟩⟩ := items
    · exact carriesTo_unsupported _
    · exact joined item List.mem_cons_self
    · exact carriesTo_unsupported _

section Variants

variable {variants : List (Variant Descriptor)} (h : ∀ x ∈ variants, CarriedIn x)

include h

theorem carriesTo_lowerPayloads :
    (lowerPayloads path variants).CarriesTo (payloadsOn path variants) := by
  induction variants with
  | nil => exact carriesTo_pure _
  | cons x variants ih =>
    obtain ⟨hx, hxs⟩ := List.forall_mem_cons.mp h
    rw [lowerPayloads, payloadsOn]
    split
    · exact ih hxs
    · exact (carriesTo_lowerPayload hx).bind fun s => (ih hxs).map _

theorem carriesTo_lowerExternal :
    (lowerExternal path variants).CarriesTo (externalOn path variants) := by
  induction variants with
  | nil => exact carriesTo_pure _
  | cons x variants ih =>
    obtain ⟨hx, hxs⟩ := List.forall_mem_cons.mp h
    rw [lowerExternal, externalOn]
    split
    · exact ih hxs
    · dsimp only
      split
      · exact (carriesTo_lowerPayload hx).bind fun s => (ih hxs).map _
      · exact (carriesTo_pure _).bind fun s => (ih hxs).map _

theorem carriesTo_lowerInternal (enum tagKey : String) :
    (lowerInternal enum tagKey path variants).CarriesTo
      (internalOn enum tagKey path variants) := by
  induction variants with
  | nil => exact carriesTo_pure _
  | cons x variants ih =>
    obtain ⟨hx, hxs⟩ := List.forall_mem_cons.mp h
    rw [lowerInternal, internalOn]
    split
    · exact ih hxs
    · exact (carriesTo_lowerUntagged hx).bind fun s =>
        (carriesTo_ofOutcome (Variant.steps_tagged _ _ _ s _)).bind fun t => (ih hxs).map _

/-- Every tagging comes to the same in both ways. -/
theorem carried_enum (name : String) (tagging : Tagging) (description : Option String) :
    (enum name tagging variants description).Carried := by
  intro embed path
  rw [lower, synthesizeOn]
  refine (carriesTo_ofOutcome (Variant.steps_check _ _ _)).bind fun _ => ?_
  dsimp only
  split
  · exact carriesTo_pure _
  · cases tagging with
    | external => exact (carriesTo_lowerExternal h).map _
    | internal tagKey => exact (carriesTo_lowerInternal h _ _).map _
    | adjacent tagKey contentKey =>
      exact (carriesTo_require _ _).bind fun _ => (carriesTo_lowerPayloads h).map _
    | untagged =>
      dsimp only
      cases (Variant.serialized variants).find? (!·.hasPayload) with
      | some v => exact (carriesTo_unsupported _).bind fun _ => (carriesTo_lowerPayloads h).map _
      | none => exact (carriesTo_lowerPayloads h).map _

end Variants

/-! ## The two ways -/

/-- **Storing at once and storing in the end come to the same** — for every descriptor, at every use
site, path and registry. -/
theorem carriesTo_lower (d : Descriptor) : d.Carried := by
  induction d using Descriptor.tree with
  | primitive kind format => exact fun _ _ => carriesTo_pure _
  | array element ih => exact fun _ _ => (ih _ _).map _
  | optional inner ih => exact fun _ _ => (ih _ _).map _
  | map value ih => exact fun _ _ => (ih _ _).map _
  | tuple items ih => exact fun _ _ => carriesTo_tuple _ _ (carriesTo_lowerItems ih _)
  | any => exact fun _ _ => carriesTo_pure _
  | composite mode members ih =>
    exact fun _ _ => (carriesTo_require _ _).bind fun _ => (carriesTo_lowerMembers mode ih _).map _
  | object name fields ih => exact fun _ _ => carriesTo_object _ (carriesTo_lowerFields ih _)
  | enum name tagging variants description ih => exact carried_enum ih name tagging description
  | named name underlying description format sample inline ih =>
    intro embed path
    rw [lower, synthesizeOn]
    refine (ih _ _).bind fun s => ?_
    dsimp only
    split
    · exact carriesTo_pure _
    · exact (carriesTo_define _ _).map _
  | reference name => exact fun _ _ => carriesTo_pure _

/-- With the registry in hand, two registries never make different schemas of one descriptor. -/
theorem synthesizeOn_unmoved {d : Descriptor} {embed : Bool} {path : DescriptorPath}
    {r₁ r₂ : Registry} {s₁ s₂ : Schema} (h₁ : (d.synthesizeOn embed path r₁).2 = .ok s₁)
    (h₂ : (d.synthesizeOn embed path r₂).2 = .ok s₂) : s₁ = s₂ := by
  rw [← carriesTo_lower d embed path] at h₁ h₂
  exact Except.ok.inj
    ((Registry.outcome_of_carryOut h₁).symm.trans (Registry.outcome_of_carryOut h₂))

end Descriptor

/-- **The synthesis of a descriptor is the one with the registry in hand.** -/
theorem Registry.synthesize_eq_synthesizeOn (r : Registry) (d : Descriptor) :
    r.synthesize d = d.synthesizeOn false [] r :=
  Descriptor.carriesTo_lower d false [] r

end OpenApi
