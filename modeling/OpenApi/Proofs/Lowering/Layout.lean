import OpenApi.Proofs.Lowering.Runs
import OpenApi.Proofs.Lowering.WellFormed

/-!
# Proofs/Lowering/Layout — schemas of lists of parts

    parts    p₁  p₂  …  pₙ
             │   │       │      `lower…_eq_sequence`
    schemas  s₁  s₂  …  sₙ      laid out by the tagging (`Layout`)

The items of a tuple and the variants of an enum are lowered one by one, so their schemas stand one
for one beside them, and no other part has a say in the schema of one.  What a tagging does is to
put these schemas together: `Layout` says how, and `layout_of_lower` that every enum with a payload
comes out that way.
-/

namespace OpenApi

namespace Descriptor

variable {embed : Bool} {path : DescriptorPath}

/-! ## Schemas beside parts -/

/-- Schemas stand one for one beside the parts that they are the lowerings of. -/
def Beside {τ : Type} (f : τ → Lowering Schema) (parts : List τ) (ss : List Schema) : Prop :=
  List.Forall₂ (fun p s => (f p).outcome = .ok s) parts ss

theorem beside_of_sequence {τ : Type} {f : τ → Lowering Schema} {parts : List τ}
    {ss : List Schema} (h : (Journal.sequence (parts.map f)).outcome = .ok ss) :
    Beside f parts ss := List.forall₂_map_left_iff.mp (Journal.sequence_eq_ok_iff.mp h)

/-- Parts have one list of schemas. -/
theorem Beside.eq_of {τ : Type} {f : τ → Lowering Schema} {parts : List τ} {ss ts : List Schema}
    (hs : Beside f parts ss) (ht : Beside f parts ts) : ss = ts :=
  List.right_unique_forall₂' (fun _ _ _ h h' => Except.ok.inj (h.symm.trans h')) hs ht

/-! ## Enums -/

/-- **The schema of an enum with a payload**, tagging by tagging. -/
def Layout (name : String) (path : DescriptorPath) (variants : List (Variant Descriptor))
    (description : Option String) : Tagging → Schema → Prop
  | .external, s => ∃ ss, Beside (lowerBranch path) (Variant.serialized variants) ss ∧
      s = Variant.externalObject ss description
  | .internal tagKey, s => ∃ ss,
      Beside (lowerTagged name tagKey path) (Variant.serialized variants) ss ∧
        s = Schema.composite .oneOf ss description
  | .adjacent tagKey contentKey, s => tagKey ≠ contentKey ∧ ∃ ss,
      Beside (fun x => lowerPayload (path.enter x.name) x)
        ((Variant.serialized variants).filter (·.hasPayload)) ss ∧
      s = Variant.adjacentObject tagKey contentKey
        (Variant.tagProperty name ((Variant.serialized variants).map (·.name))) ss description
  | .untagged, s => ∃ ss,
      Beside (fun x => lowerPayload (path.enter x.name) x)
        ((Variant.serialized variants).filter (·.hasPayload)) ss ∧
      s = Schema.composite .oneOf ss description

section Enum

variable {name : String} {tagging : Tagging} {variants : List (Variant Descriptor)}
  {description : Option String} {s : Schema}

/-- An enum that has a schema has serialized variants, and these have different names. -/
theorem live_of_lower
    (h : ((enum name tagging variants description).lower embed path).outcome = .ok s) :
    Variant.serialized variants ≠ [] ∧ ((Variant.serialized variants).map (·.name)).Nodup := by
  rw [lower] at h
  obtain ⟨u, hcheck, -⟩ := Journal.bind_eq_ok_iff.mp h
  exact (Variant.yields_check _ _ _).value u hcheck

/-- **An enum of bare names is a choice of texts**, whatever its tagging. -/
theorem eq_stringOf_of_lower (hbare : ¬ ∃ x ∈ Variant.serialized variants, x.hasPayload = true)
    (h : ((enum name tagging variants description).lower embed path).outcome = .ok s) :
    s = Schema.stringOf ((Variant.serialized variants).map (·.name)) description := by
  have hall : ∀ x ∈ variants, x.skip = false → x.hasPayload = false := by
    intro x hx live
    have hmem : x ∈ Variant.serialized variants := List.mem_filter.mpr ⟨hx, by rw [live]; rfl⟩
    exact Bool.eq_false_iff.mpr fun hp => hbare ⟨x, hmem, hp⟩
  exact (eq_stringOf_of_run_enum hall (Journal.run_of_outcome h)).2

/-- **An enum with a payload is laid out by its tagging.** -/
theorem layout_of_lower (hpayload : ∃ x ∈ Variant.serialized variants, x.hasPayload = true)
    (h : ((enum name tagging variants description).lower embed path).outcome = .ok s) :
    Layout name (if path = [] then [name] else path) variants description tagging s := by
  rw [lower] at h
  obtain ⟨_, -, h⟩ := Journal.bind_eq_ok_iff.mp h
  have hany : (Variant.serialized variants).any (·.hasPayload) = true := by
    simpa [List.any_eq_true] using hpayload
  dsimp only at h
  rw [hany, Bool.not_true, if_neg Bool.false_ne_true] at h
  cases tagging with
  | external =>
    obtain ⟨ss, hss, hs⟩ := Journal.bind_eq_ok_iff.mp h
    rw [lowerExternal_eq_sequence] at hss
    exact ⟨ss, beside_of_sequence hss, (Except.ok.inj hs).symm⟩
  | internal tagKey =>
    obtain ⟨ss, hss, hs⟩ := Journal.bind_eq_ok_iff.mp h
    rw [lowerInternal_eq_sequence] at hss
    exact ⟨ss, beside_of_sequence hss, (Except.ok.inj hs).symm⟩
  | adjacent tagKey contentKey =>
    obtain ⟨u, hkeys, h⟩ := Journal.bind_eq_ok_iff.mp h
    have hne := (Lowering.yields_require _ _ _).value u hkeys
    obtain ⟨ss, hss, hs⟩ := Journal.bind_eq_ok_iff.mp h
    rw [lowerPayloads_eq_sequence] at hss
    exact ⟨of_decide_eq_true hne, ss, beside_of_sequence hss, (Except.ok.inj hs).symm⟩
  | untagged =>
    dsimp only at h
    split at h
    · obtain ⟨u, hu, -⟩ := Journal.bind_eq_ok_iff.mp h
      cases hu
    · obtain ⟨ss, hss, hs⟩ := Journal.bind_eq_ok_iff.mp h
      rw [lowerPayloads_eq_sequence] at hss
      exact ⟨ss, beside_of_sequence hss, (Except.ok.inj hs).symm⟩

end Enum

end Descriptor

end OpenApi
