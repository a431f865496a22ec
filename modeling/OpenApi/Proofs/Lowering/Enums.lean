import OpenApi.Proofs.Lowering.InternalTag
import OpenApi.Proofs.Lowering.Paths
import OpenApi.Proofs.Lowering.Visits

/-!
# Proofs/Lowering/Enums — every serialized variant in the schema of its enum

    serialized   x₁   x₂   x₃              x₂ a bare name
    external     p₁   n₂   p₃              a choice of n₂ = {"x₂"} and the payloads
    internal     t₁   t₂   t₃              a choice of objects, with the tag {"xᵢ"} in each
    adjacent     p₁        p₃              a choice of payloads, beside a tag {"x₁", "x₂", "x₃"}
    untagged     p₁        p₃              not with x₂

Whatever the tagging, each serialized variant has its place in the schema of the enum, in the order
of declaration (`Schema.OfEnum`), and a skipped one has none (`lower_serialized`).  The payloads are
the same wherever the enum stands, since a path shows in failures only.
-/

namespace OpenApi

/-! ## Branches -/

/-- The metadata of a payload with the description of its variant, if that has one. -/
def Metadata.describedBy (m : Metadata) (description : Option String) : Metadata :=
  { m with description := nonEmptyOr description m.description }

/-- **How a tag joins a schema**: an object as one more property, which is required, and an `allOf`
as one more member. -/
inductive Schema.JoinedBy (s : Schema) (tagKey : String) (tag : Schema)
    (description : Option String) : Schema → Prop
  | property (object : s.kind = .object) (new : tagKey ∉ s.properties.map (·.1)) :
    JoinedBy s tagKey tag description
      { s with
        properties := sortOn (·.1) (s.properties ++ [(tagKey, tag)])
        required := s.required ++ [tagKey]
        metadata := s.metadata.describedBy description }
  | member (allOf : s.kind = .composite .allOf) :
    JoinedBy s tagKey tag description
      { s with
        members := s.members ++ [Schema.object [(tagKey, tag)] [tagKey] none]
        metadata := s.metadata.describedBy description }

namespace Variant

/-- The schema of the payload of a variant, wherever the variant stands. -/
def Carries (x : Variant Descriptor) (s : Schema) : Prop :=
  ∀ path, (Descriptor.lowerPayload path x).outcome = .ok s

/-- The branch of an externally tagged variant: its payload, or the choice of its name alone. -/
def ExternalBranch (x : Variant Descriptor) (b : Schema) : Prop :=
  if x.hasPayload then x.Carries b else b = Schema.stringOf [x.name] x.description

/-- The branch of an internally tagged variant: what the variant embeds, and nothing for a bare
name, joined by a tag that is the choice of the name alone. -/
def InternalBranch (enum tagKey : String) (x : Variant Descriptor) (b : Schema) : Prop :=
  ∃ payload : Schema,
    (∀ path, (Descriptor.lowerUntagged path x).outcome = .ok payload) ∧
      (x.hasPayload = false → payload = Schema.object [] [] none) ∧
      payload.JoinedBy tagKey (Schema.stringOf [x.name] (some (enum ++ " type variant")))
        x.description b

end Variant

/-- **How an enum with a payload is laid out** over its serialized variants, tagging by tagging. -/
def Tagging.LaysOut (enum : String) (live : List (Variant Descriptor)) (description : Option String)
    (s : Schema) : Tagging → Prop
  | .external => ∃ branches, List.Forall₂ Variant.ExternalBranch live branches ∧
      s = Schema.mapOf (Schema.composite .oneOf branches description) description
  | .internal tagKey => ∃ branches,
      List.Forall₂ (Variant.InternalBranch enum tagKey) live branches ∧
        s = Schema.composite .oneOf branches description
  | .adjacent tagKey contentKey => tagKey ≠ contentKey ∧ ∃ payloads, payloads ≠ [] ∧
      List.Forall₂ Variant.Carries (live.filter (·.hasPayload)) payloads ∧
        s = Schema.object
          [(tagKey, Schema.stringOf (live.map (·.name)) (some (enum ++ " type variant"))),
            (contentKey, Schema.composite .oneOf payloads description)]
          [tagKey, contentKey] description
  | .untagged => (∀ x ∈ live, x.hasPayload = true) ∧ ∃ branches,
      List.Forall₂ Variant.Carries live branches ∧
        s = Schema.composite .oneOf branches description

/-- **The schema of an enum** over its serialized variants: a choice of their names if these are
all there is to them, and else as the tagging lays it out. -/
structure Schema.OfEnum (enum : String) (tagging : Tagging) (live : List (Variant Descriptor))
    (description : Option String) (s : Schema) : Prop where
  nonempty : live ≠ []
  nodup : (live.map (·.name)).Nodup
  bare : (∀ x ∈ live, x.hasPayload = false) →
    s = Schema.stringOf (live.map (·.name)) description
  bearing : (∃ x ∈ live, x.hasPayload = true) → tagging.LaysOut enum live description s

namespace Descriptor

variable {embed : Bool} {path : DescriptorPath} {name : String} {tagging : Tagging}
  {variants : List (Variant Descriptor)} {description : Option String} {s : Schema}

/-! ## What has no say -/

/-- **Skipped variants may be taken out.** -/
theorem lower_serialized :
    (enum name tagging (Variant.serialized variants) description).lower embed path =
      (enum name tagging variants description).lower embed path := by
  have hlive : Variant.serialized (Variant.serialized variants) = Variant.serialized variants :=
    List.filter_eq_self.mpr fun x hx => (List.mem_filter.mp hx).2
  rw [lower, lower, Variant.check, Variant.check, hlive]
  simp only [lowerExternal_eq_sequence, lowerInternal_eq_sequence, lowerPayloads_eq_sequence, hlive]

/-- **The tagging of bare names has no say.** -/
theorem lower_of_bare (hbare : ∀ x ∈ Variant.serialized variants, x.hasPayload = false)
    (tagging' : Tagging) :
    (enum name tagging' variants description).lower embed path =
      (enum name tagging variants description).lower embed path := by
  have hany : (Variant.serialized variants).any (·.hasPayload) = false :=
    List.any_eq_false.mpr fun x hx => Bool.eq_false_iff.mp (hbare x hx)
  rw [lower, lower]
  dsimp only
  rw [hany]
  rfl

/-! ## The schema of an enum -/

theorem externalBranch_of_lowerBranch {x : Variant Descriptor} {b : Schema}
    (h : (lowerBranch path x).outcome = .ok b) : x.ExternalBranch b := by
  rw [lowerBranch] at h
  rw [Variant.ExternalBranch]
  split
  · next hx =>
    rw [if_pos hx] at h
    exact outcome_lowerPayload_eq_ok h
  · next hx =>
    rw [if_neg hx] at h
    exact (Except.ok.inj h).symm

theorem internalBranch_of_lowerTagged {tagKey : String} {x : Variant Descriptor} {b : Schema}
    (h : (lowerTagged name tagKey path x).outcome = .ok b) : x.InternalBranch name tagKey b := by
  obtain ⟨payload, hpayload, hb⟩ := lowerTagged_eq_ok h
  obtain ⟨hwf, hkind⟩ := (yields_lowerUntagged _ (fineIn x)).value payload hpayload
  refine ⟨payload, outcome_lowerUntagged_eq_ok hpayload, fun hbare => ?_, ?_⟩
  · obtain ⟨_, style, _, _, _, _, _⟩ := x
    obtain rfl : style = .unit := by simpa [Variant.hasPayload] using hbare
    exact (Except.ok.inj hpayload).symm
  · obtain ⟨_, rfl, ⟨hall, rfl⟩ | ⟨hall, hnew, rfl⟩⟩ := Variant.tagged_eq_ok hwf hb
    · exact .member hall
    · exact .property (hkind.resolve_right hall) hnew

/-- The payloads of the variants that have one, wherever the enum stands. -/
theorem carries_of_beside {xs : List (Variant Descriptor)} {ss : List Schema}
    (h : Beside (fun x => lowerPayload (path.enter x.name) x) xs ss) :
    List.Forall₂ Variant.Carries xs ss := h.imp fun _ _ => outcome_lowerPayload_eq_ok

/-- An untagged enum has no room for a bare name beside a payload. -/
theorem hasPayload_of_untagged (hpayload : ∃ x ∈ Variant.serialized variants, x.hasPayload = true)
    (h : ((enum name .untagged variants description).lower embed path).outcome = .ok s) :
    ∀ x ∈ Variant.serialized variants, x.hasPayload = true := by
  rw [lower] at h
  obtain ⟨_, -, h⟩ := Journal.bind_eq_ok_iff.mp h
  dsimp only at h
  rw [List.any_eq_true.mpr hpayload, Bool.not_true, if_neg Bool.false_ne_true] at h
  split at h
  · obtain ⟨u, hu, -⟩ := Journal.bind_eq_ok_iff.mp h
    cases hu
  · next hnone => exact fun x hx => by simpa using List.find?_eq_none.mp hnone x hx

/-- **Every enum that is lowered has such a schema.** -/
theorem ofEnum_of_lower
    (h : ((enum name tagging variants description).lower embed path).outcome = .ok s) :
    s.OfEnum name tagging (Variant.serialized variants) description := by
  obtain ⟨hnonempty, hnodup⟩ := live_of_lower h
  refine ⟨hnonempty, hnodup, fun hbare => eq_stringOf_of_lower ?_ h, fun hpayload => ?_⟩
  · rintro ⟨x, hx, hp⟩
    rw [hbare x hx] at hp
    cases hp
  · have hlayout := layout_of_lower hpayload h
    cases tagging with
    | external =>
      obtain ⟨branches, hbranches, hs⟩ := hlayout
      exact ⟨branches, hbranches.imp fun _ _ => externalBranch_of_lowerBranch, hs⟩
    | internal tagKey =>
      obtain ⟨branches, hbranches, hs⟩ := hlayout
      exact ⟨branches, hbranches.imp fun _ _ => internalBranch_of_lowerTagged, hs⟩
    | adjacent tagKey contentKey =>
      obtain ⟨hkeys, payloads, hpayloads, hs⟩ := hlayout
      refine ⟨hkeys, payloads, ?_, carries_of_beside hpayloads, hs⟩
      rintro rfl
      obtain ⟨x, hx, hp⟩ := hpayload
      have hnone := List.forall₂_nil_right_iff.mp hpayloads
      exact List.not_mem_nil (hnone ▸ List.mem_filter.mpr ⟨hx, hp⟩)
    | untagged =>
      obtain ⟨branches, hbranches, hs⟩ := hlayout
      have hall := hasPayload_of_untagged hpayload h
      rw [List.filter_eq_self.mpr hall] at hbranches
      exact ⟨hall, branches, carries_of_beside hbranches, hs⟩

end Descriptor

open Descriptor in
/-- **The schema of an enum keeps every serialized variant**, once and in order, wherever the enum
stands and whatever is stored: on its own, or anywhere in a descriptor that is synthesized
(`walk`).  Skipped variants have no say in anything, nor has the tagging of bare names. -/
theorem carryOut_enum (name : String) (tagging : Tagging) (variants : List (Variant Descriptor))
    (description : Option String) (r : Registry) (embed : Bool) (path : DescriptorPath) :
    r.carryOut ((enum name tagging (Variant.serialized variants) description).lower embed path) =
        r.carryOut ((enum name tagging variants description).lower embed path) ∧
      ((∀ x ∈ Variant.serialized variants, x.hasPayload = false) → ∀ tagging' : Tagging,
        r.carryOut ((enum name tagging' variants description).lower embed path) =
          r.carryOut ((enum name tagging variants description).lower embed path)) ∧
      (∀ s, (r.carryOut ((enum name tagging variants description).lower embed path)).2 = .ok s →
        s.OfEnum name tagging (Variant.serialized variants) description) ∧
      ∀ (d : Descriptor) (embed' : Bool) (path' : DescriptorPath) (s : Schema),
        (r.carryOut (d.lower embed' path')).2 = .ok s →
        (embed, enum name tagging variants description) ∈ d.walk embed' →
          ∃ t, ((enum name tagging variants description).lower embed path).outcome = .ok t ∧
            t.OfEnum name tagging (Variant.serialized variants) description := by
  refine ⟨by rw [lower_serialized], fun hbare tagging' => ?_, fun s h => ?_, ?_⟩
  · rw [lower_of_bare hbare tagging']
  · exact ofEnum_of_lower (Registry.outcome_of_carryOut h)
  · intro d embed' path' s h hmem
    obtain ⟨q, t, ht⟩ := outcome_of_mem_walk (Registry.outcome_of_carryOut h) hmem
    exact ⟨t, outcome_lower_eq_ok ht path, ofEnum_of_lower ht⟩

namespace Descriptor

/-- The variants of a place: a bare name, one that is skipped, and two coordinates. -/
def placeVariants : List (Variant Descriptor) :=
  [.ofUnit "Nowhere" none false, .ofNewtype "Street" (string none) none true false,
    .ofTuple "Point" [{ type := number none }, { type := number none }] none false false]

/-- A sum type of two keys. -/
def place : Descriptor := .enum "Place" (.adjacent "kind" "at") placeVariants (some "Where.")

/-- A sum type of bare names. -/
def level (tagging : Tagging) : Descriptor :=
  .enum "Level" tagging [.ofUnit "Low" none false, .ofUnit "High" none false] none

end Descriptor

open Descriptor in
/-- A place has two names and one payload, on its own and in a list of places; levels are the same
under any tagging. -/
theorem carryOut_enum_place :
    (∃ s, (Registry.carryOut {} (place.lower false [])).2 = .ok s ∧
      s.OfEnum "Place" (.adjacent "kind" "at") (Variant.serialized placeVariants)
        (some "Where.")) ∧
      (∃ s, (Registry.carryOut {} ((array place).lower false [])).2 = .ok s) ∧
      (false, place) ∈ (array place).walk false ∧
      (∃ s, (place.lower false []).outcome = .ok s ∧
        s.OfEnum "Place" (.adjacent "kind" "at") (Variant.serialized placeVariants)
          (some "Where.")) ∧
      ∀ tagging, Registry.carryOut {} ((level tagging).lower false []) =
        Registry.carryOut {} ((level .untagged).lower false []) := by
  obtain ⟨-, -, hown, hnested⟩ :=
    carryOut_enum "Place" (.adjacent "kind" "at") placeVariants (some "Where.") {} false []
  obtain ⟨-, hbare, -⟩ := carryOut_enum "Level" .untagged
    [.ofUnit "Low" none false, .ofUnit "High" none false] none {} false []
  obtain ⟨s, hs⟩ : ∃ s, (Registry.carryOut {} (place.lower false [])).2 = .ok s := ⟨_, rfl⟩
  obtain ⟨t, ht⟩ : ∃ t, (Registry.carryOut {} ((array place).lower false [])).2 = .ok t := ⟨_, rfl⟩
  have hmem : (false, place) ∈ (array place).walk false := by
    rw [walk_eq, List.mem_append, List.mem_flatMap]
    exact Or.inl ⟨(false, place), List.mem_singleton_self _, mem_walk_self _ _⟩
  exact ⟨⟨s, hs, hown s hs⟩, ⟨t, ht⟩, hmem, hnested (array place) false [] t ht hmem,
    hbare (by decide)⟩

end OpenApi
