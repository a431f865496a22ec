import OpenApi.Lowering.Basic
import OpenApi.Proofs.Journal

/-!
# Proofs/Lowering/Runs — what a lowering that ended well consists of

For each form of a descriptor without a choice of forms: the lowerings of the parts, which ended
well themselves, and how the schema and the definitions are made from theirs.
-/

namespace OpenApi

namespace Lowering

theorem run_require {condition : Bool} {path : DescriptorPath} {fault : ShapeFault}
    {defs : List Definition} {u : Unit} :
    (require condition path fault).Run defs u ↔ condition = true ∧ defs = [] := by
  rw [require]
  cases condition <;> simp [unsupported]

end Lowering

namespace Descriptor

variable {embed : Bool} {path : DescriptorPath} {defs : List Definition} {s : Schema}

theorem run_primitive {kind : PrimitiveKind} {format : Option String} :
    ((primitive kind format).lower embed path).Run defs s ↔
      defs = [] ∧ s = Schema.primitive kind.word format :=
  Journal.run_pure

theorem run_array {element : Descriptor} :
    ((array element).lower embed path).Run defs s ↔
      ∃ i, (element.lower false (path.enter "[]")).Run defs i ∧ s = Schema.array i none :=
  Journal.run_bind_pure

theorem run_optional {inner : Descriptor} :
    ((optional inner).lower embed path).Run defs s ↔
      ∃ i, (inner.lower embed path).Run defs i ∧ s = i.withMetadata { nullable := true } :=
  Journal.run_bind_pure

theorem run_map {value : Descriptor} :
    ((map value).lower embed path).Run defs s ↔
      ∃ i, (value.lower false (path.enter "{}")).Run defs i ∧ s = Schema.mapOf i none :=
  Journal.run_bind_pure

theorem run_any : (any.lower embed path).Run defs s ↔ defs = [] ∧ s = Schema.any :=
  Journal.run_pure

theorem run_reference {name : String} :
    ((reference name).lower embed path).Run defs s ↔ defs = [] ∧ s = Schema.ref name :=
  Journal.run_pure

/-- A named type that is not embedded is stored after those in it. -/
theorem run_named {name : String} {underlying : Descriptor}
    {description format sample : Option String} {inline : Bool} :
    ((named name underlying description format sample inline).lower embed path).Run defs s ↔
      ∃ defs₁ i t, (underlying.lower embed (path.enter name)).Run defs₁ i ∧
        t = i.withMetadata { description, format, sample } ∧
        (((embed || inline) = true ∧ defs = defs₁ ∧ s = t) ∨
          ((embed || inline) = false ∧ defs = defs₁ ++ [⟨name, t⟩] ∧ s = Schema.ref name)) := by
  refine Journal.run_bind.trans ?_
  cases embed || inline with
  | true =>
    simp only [if_true, Journal.run_pure, true_and, Bool.true_eq_false, false_and, or_false]
    constructor
    · rintro ⟨defs₁, i, defs₂, hi, ⟨rfl, rfl⟩, rfl⟩
      exact ⟨defs₁, i, _, hi, rfl, List.append_nil _, rfl⟩
    · rintro ⟨defs₁, i, t, hi, rfl, rfl, rfl⟩
      exact ⟨defs, i, [], hi, ⟨rfl, rfl⟩, (List.append_nil _).symm⟩
  | false =>
    simp only [Bool.false_eq_true, if_false, Lowering.define, Journal.run_bind_pure,
      Journal.run_tell, false_and, true_and, false_or]
    constructor
    · rintro ⟨defs₁, i, defs₂, hi, ⟨_, rfl, rfl⟩, rfl⟩
      exact ⟨defs₁, i, _, hi, rfl, rfl, rfl⟩
    · rintro ⟨defs₁, i, t, hi, rfl, rfl, rfl⟩
      exact ⟨defs₁, i, _, hi, ⟨(), rfl, rfl⟩, rfl⟩

/-! ## Lists of parts -/

theorem run_composite {mode : Composition} {members : List Descriptor} :
    ((composite mode members).lower embed path).Run defs s ↔
      members ≠ [] ∧ ∃ ss, (lowerMembers path mode 0 members).Run defs ss ∧
        s = Schema.composite mode ss none := by
  rw [lower, Journal.run_bind]
  simp only [Lowering.run_require, Journal.run_bind_pure]
  constructor
  · rintro ⟨_, _, defs₂, ⟨hne, rfl⟩, hss, rfl⟩
    exact ⟨by simpa using hne, hss⟩
  · rintro ⟨hne, hss⟩
    exact ⟨[], (), defs, ⟨by simpa using hne, rfl⟩, hss, rfl⟩

theorem run_lowerMembers_nil {mode : Composition} {index : Nat} {ss : List Schema} :
    (lowerMembers path mode index []).Run defs ss ↔ defs = [] ∧ ss = [] :=
  Journal.run_pure

theorem run_lowerMembers_cons {mode : Composition} {index : Nat} {member : Descriptor}
    {members : List Descriptor} {ss : List Schema} :
    (lowerMembers path mode index (member :: members)).Run defs ss ↔
      ∃ defs₁ i defs₂ is,
        (member.lower false (path.enter (mode.word ++ "[" ++ toString index ++ "]"))).Run defs₁ i ∧
        (lowerMembers path mode (index + 1) members).Run defs₂ is ∧ defs = defs₁ ++ defs₂ ∧
        ss = i :: is := by
  rw [lowerMembers, Journal.run_bind]
  simp only [Journal.run_bind_pure]
  constructor
  · rintro ⟨defs₁, i, defs₂, hi, ⟨is, his, rfl⟩, rfl⟩
    exact ⟨defs₁, i, defs₂, is, hi, his, rfl, rfl⟩
  · rintro ⟨defs₁, i, defs₂, is, hi, his, rfl, rfl⟩
    exact ⟨defs₁, i, defs₂, hi, ⟨is, his, rfl⟩, rfl⟩

theorem run_object {name : Option String} {fields : List (Field Descriptor)} :
    ((object name fields).lower embed path).Run defs s ↔
      ∃ p, (lowerFields false (if path = [] then (name.filter (· ≠ "")).toList else path) []
        fields).Run defs p ∧ s = Schema.object p.1 p.2 none :=
  Journal.run_bind_pure

theorem run_lowerFields_nil {seen : List String} {p : List (String × Schema) × List String} :
    (lowerFields embed path seen []).Run defs p ↔ defs = [] ∧ p = ([], []) :=
  Journal.run_pure

/-- A skipped field says nothing; any other one has a new name. -/
theorem run_lowerFields_cons {seen : List String} {f : Field Descriptor}
    {fields : List (Field Descriptor)} {p : List (String × Schema) × List String} :
    (lowerFields embed path seen (f :: fields)).Run defs p ↔
      (f.skip = true ∧ (lowerFields embed path seen fields).Run defs p) ∨
      (f.skip = false ∧ f.name ∉ seen ∧ ∃ defs₁ i defs₂ q,
        (f.type.lower (embed || f.inline) (path.enter f.name)).Run defs₁ i ∧
        (lowerFields embed path (f.name :: seen) fields).Run defs₂ q ∧ defs = defs₁ ++ defs₂ ∧
        p = ((f.name, i.withMetadata f.metadata) :: q.1,
          if f.forceOptional then q.2 else f.name :: q.2)) := by
  obtain ⟨name, type, metadata, forceOptional, skip, inline⟩ := f
  rw [lowerFields]
  cases skip with
  | true => simp
  | false =>
    by_cases hname : name ∈ seen
    · simp [hname, Lowering.unsupported]
    · simp only [hname, Bool.false_eq_true, if_false, false_and, false_or, true_and,
        not_false_eq_true, Journal.run_bind]
      constructor
      · rintro ⟨defs₁, i, defs₂, hi, ⟨defs₃, q, defs₄, hq, hp, rfl⟩, rfl⟩
        obtain ⟨rfl, rfl⟩ := Journal.run_pure.mp hp
        exact ⟨defs₁, i, defs₃, q, hi, hq, by rw [List.append_nil], rfl⟩
      · rintro ⟨defs₁, i, defs₂, q, hi, hq, rfl, rfl⟩
        exact ⟨defs₁, i, defs₂, hi,
          ⟨defs₂, q, [], hq, Journal.run_pure.mpr ⟨rfl, rfl⟩, (List.append_nil _).symm⟩, rfl⟩

/-! ## Sum types of bare names -/

theorem eq_nil_of_run_check {enum : String} {variants : List (Variant Descriptor)} {u : Unit}
    (h : (Variant.check enum variants path).Run defs u) : defs = [] := by
  rw [Variant.check, Journal.run_bind] at h
  obtain ⟨defs₁, _, defs₂, h₁, h₂, rfl⟩ := h
  obtain ⟨-, rfl⟩ := Lowering.run_require.mp h₁
  split at h₂
  · exact absurd h₂ Journal.run_fail
  · exact (Journal.run_pure.mp h₂).1

theorem eq_stringOf_of_run_enum {name : String} {tagging : Tagging}
    {variants : List (Variant Descriptor)} {description : Option String}
    (hbare : ∀ x ∈ variants, x.skip = false → x.hasPayload = false)
    (h : ((enum name tagging variants description).lower embed path).Run defs s) :
    defs = [] ∧ s = Schema.stringOf ((Variant.serialized variants).map (·.name)) description := by
  have hany : (Variant.serialized variants).any (·.hasPayload) = false := by
    rw [List.any_eq_false]
    intro x hx
    obtain ⟨hmem, hskip⟩ := List.mem_filter.mp hx
    simp [hbare x hmem (by simpa using hskip)]
  rw [lower, Journal.run_bind] at h
  obtain ⟨defs₁, _, defs₂, h₁, h₂, rfl⟩ := h
  rw [eq_nil_of_run_check h₁]
  dsimp only at h₂
  rw [hany] at h₂
  exact Journal.run_pure.mp h₂

end Descriptor

end OpenApi
