import OpenApi.Proofs.Lowering.Alternatives
import OpenApi.Proofs.Schema.Targets

/-!
# Proofs/Lowering/Chains — names and options around a core

    named … (optional (named … (… core)))

A lowering puts metadata on the schema of the core, link by link, and stores it at the names on the
way.  So a schema points at a stored one for the sake of a name, or of a core that is a reference
itself or may be an `allOf` around one.  Any other core is a shape of its own, which points nowhere
(`target?_of_lower`) and is the same for every use site (`lower_of_isCore`).
-/

namespace OpenApi.Descriptor

/-- **A descriptor that is no link of a chain** — neither a name nor an option. -/
def IsCore : Descriptor → Prop
  | .optional _ | .named .. => False
  | _ => True

/-- **What a chain of names and options is around.** -/
def core : Descriptor → Descriptor
  | .optional inner => inner.core
  | .named _ underlying _ _ _ _ => underlying.core
  | d => d

/-- **A chain around a shape of its own** — around anything but a reference or a composition, which
may be an `allOf` around a reference itself. -/
def EndsInShape (d : Descriptor) : Prop :=
  (∀ name, d.core ≠ .reference name) ∧ ∀ mode members, d.core ≠ .composite mode members

/-- **Induction along a chain**, from its core outwards. -/
@[elab_as_elim]
theorem chainInduction {P : Descriptor → Prop} (content : ∀ d : Descriptor, d.IsCore → P d)
    (optional : ∀ inner, P inner → P (.optional inner))
    (named : ∀ name underlying description format sample inline, P underlying →
      P (.named name underlying description format sample inline)) (d : Descriptor) : P d := by
  induction d using Descriptor.tree with
  | optional inner ih => exact optional inner ih
  | named name underlying description format sample inline ih =>
    exact named name underlying description format sample inline ih
  | _ => exact content _ trivial

variable {embed : Bool} {path : DescriptorPath} {d : Descriptor} {s : Schema}

/-- Embedding is a matter of the links alone. -/
theorem lower_of_isCore (h : d.IsCore) (embed : Bool) (path : DescriptorPath) :
    d.lower embed path = d.lower false path := by
  cases d <;> first | rfl | exact h.elim

/-- Every tagging makes a schema that points nowhere. -/
theorem target?_of_lower_enum {name : String} {tagging : Tagging}
    {variants : List (Variant Descriptor)} {description : Option String}
    (h : ((enum name tagging variants description).lower embed path).outcome = .ok s) :
    s.target? = none := by
  by_cases hpayload : ∃ x ∈ Variant.serialized variants, x.hasPayload = true
  · have hlayout := layout_of_lower hpayload h
    cases tagging with
    | external =>
      obtain ⟨ss, -, rfl⟩ := hlayout
      rfl
    | internal tagKey =>
      obtain ⟨ss, -, rfl⟩ := hlayout
      rfl
    | adjacent tagKey contentKey =>
      obtain ⟨-, ss, -, rfl⟩ := hlayout
      rfl
    | untagged =>
      obtain ⟨ss, -, rfl⟩ := hlayout
      rfl
  · rw [eq_stringOf_of_lower hpayload h]
    rfl

/-- **A shape of its own points nowhere.** -/
theorem target?_of_lower (hcore : d.IsCore) (hd : d.EndsInShape)
    (h : (d.lower embed path).outcome = .ok s) : s.target? = none := by
  have hrun := Journal.run_of_outcome h
  cases d with
  | primitive kind format =>
    obtain ⟨-, rfl⟩ := run_primitive.mp hrun
    rfl
  | array element =>
    obtain ⟨i, -, rfl⟩ := run_array.mp hrun
    rfl
  | optional inner => exact hcore.elim
  | map value =>
    obtain ⟨i, -, rfl⟩ := run_map.mp hrun
    rfl
  | tuple items =>
    rw [lower] at h
    obtain ⟨ss, -, rfl⟩ := Lowering.tuple_eq_ok h
    rfl
  | any =>
    obtain ⟨-, rfl⟩ := run_any.mp hrun
    rfl
  | composite mode members => exact absurd rfl (hd.2 mode members)
  | object name fields =>
    obtain ⟨p, -, rfl⟩ := run_object.mp hrun
    rfl
  | enum name tagging variants description => exact target?_of_lower_enum h
  | named name underlying description format sample inline => exact hcore.elim
  | reference name => exact absurd rfl (hd.1 name)

end OpenApi.Descriptor
