import OpenApi.Lowering.Basic

/-!
# Proofs/Lowering/Parts — lists of parts are lowered one by one

    parts      p₁         p₂        …  pₙ
    lowering   f p₁  ──▸  f p₂  ──▸  …  f pₙ      `lower…_eq_sequence`

The recursions over the items of a tuple, the members of a composition and the variants of an enum
are sequences of lowerings of one part each, the skipped ones left out.  So a fact about all parts
needs no induction of its own.
-/

namespace OpenApi

theorem Variant.serialized_cons {τ : Type} (x : Variant τ) (variants : List (Variant τ)) :
    serialized (x :: variants) =
      if x.skip then serialized variants else x :: serialized variants := by
  rw [serialized, List.filter_cons]
  cases x.skip <;> rfl

namespace Descriptor

variable {embed : Bool} {path : DescriptorPath}

/-- The lowering of one item of a tuple, which comes with its position. -/
def lowerItem (embed : Bool) (path : DescriptorPath) (p : TupleItem Descriptor × Nat) :
    Lowering Schema := do
  let schema ← p.1.type.lower embed (path.enter ("[" ++ toString p.2 ++ "]"))
  pure (schema.withMetadata { description := p.1.description })

/-- The lowering of one member of a composition, which comes with its position. -/
def lowerMember (path : DescriptorPath) (mode : Composition) (p : Descriptor × Nat) :
    Lowering Schema :=
  p.1.lower false (path.enter (mode.word ++ "[" ++ toString p.2 ++ "]"))

/-- The lowering of one branch of an externally tagged enum. -/
def lowerBranch (path : DescriptorPath) (x : Variant Descriptor) : Lowering Schema :=
  if x.hasPayload then lowerPayload (path.enter x.name) x
  else pure (Schema.stringOf [x.name] x.description)

/-- The lowering of one branch of an internally tagged enum. -/
def lowerTagged (enum tagKey : String) (path : DescriptorPath) (x : Variant Descriptor) :
    Lowering Schema := do
  let payload ← lowerUntagged (path.enter x.name) x
  Variant.tagged tagKey (Variant.tagProperty enum [x.name]) x.description payload
    (path.enter x.name)

/-- **The items of a tuple are lowered one by one.** -/
theorem lowerItems_eq_sequence (items : List (TupleItem Descriptor)) (index : Nat) :
    lowerItems embed path index items =
      Journal.sequence ((items.zipIdx index).map (lowerItem embed path)) := by
  induction items generalizing index with
  | nil => rfl
  | cons item items ih =>
    obtain ⟨type, description⟩ := item
    rw [List.zipIdx_cons, List.map_cons, Journal.sequence, ← ih, lowerItems, lowerItem]
    simp only [bind_assoc, pure_bind]

/-- **The members of a composition are lowered one by one.** -/
theorem lowerMembers_eq_sequence (mode : Composition) (members : List Descriptor) (index : Nat) :
    lowerMembers path mode index members =
      Journal.sequence ((members.zipIdx index).map (lowerMember path mode)) := by
  induction members generalizing index with
  | nil => rfl
  | cons member members ih =>
    rw [List.zipIdx_cons, List.map_cons, Journal.sequence, ← ih, lowerMembers, lowerMember]

/-- **The payloads of an enum are lowered one by one.** -/
theorem lowerPayloads_eq_sequence (variants : List (Variant Descriptor)) :
    lowerPayloads path variants =
      Journal.sequence (((Variant.serialized variants).filter (·.hasPayload)).map fun x =>
        lowerPayload (path.enter x.name) x) := by
  induction variants with
  | nil => rfl
  | cons x variants ih =>
    rw [lowerPayloads, ih, Variant.serialized_cons]
    cases x.skip with
    | true => rfl
    | false =>
      rw [if_neg Bool.false_ne_true, List.filter_cons]
      cases x.hasPayload <;> rfl

/-- **The branches of an externally tagged enum are lowered one by one.** -/
theorem lowerExternal_eq_sequence (variants : List (Variant Descriptor)) :
    lowerExternal path variants =
      Journal.sequence ((Variant.serialized variants).map (lowerBranch path)) := by
  induction variants with
  | nil => rfl
  | cons x variants ih =>
    rw [lowerExternal, ih, Variant.serialized_cons]
    cases x.skip with
    | true => rfl
    | false =>
      rw [if_neg Bool.false_ne_true, if_neg Bool.false_ne_true, List.map_cons, Journal.sequence,
        lowerBranch]
      cases x.hasPayload <;> rfl

/-- **The branches of an internally tagged enum are lowered one by one.** -/
theorem lowerInternal_eq_sequence (enum tagKey : String) (variants : List (Variant Descriptor)) :
    lowerInternal enum tagKey path variants =
      Journal.sequence ((Variant.serialized variants).map (lowerTagged enum tagKey path)) := by
  induction variants with
  | nil => rfl
  | cons x variants ih =>
    rw [lowerInternal, ih, Variant.serialized_cons]
    cases x.skip with
    | true => rfl
    | false =>
      rw [if_neg Bool.false_ne_true, if_neg Bool.false_ne_true, List.map_cons, Journal.sequence,
        lowerTagged, bind_assoc]

end Descriptor

end OpenApi
