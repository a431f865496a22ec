import OpenApi.Descriptor.Builtin
import OpenApi.Proofs.Lowering.Layout
import OpenApi.Proofs.Lowering.Values
import OpenApi.Proofs.Registry.Independence
import OpenApi.Proofs.Schema.Alternatives

/-!
# Proofs/Lowering/Alternatives — values of tuples and of tagged enums

    values of the parts   v₁ … vₙ ──written as──▸ [v₁, …, vₙ]  {"name": v}  {tag: …, content: v}  v
                          │                             │
    schemas of the parts  s₁ … sₙ ──laid out in──▸  one `oneOf`

Neither the schema of a tuple nor that of an enum says which part a value belongs to: all parts
stand in one `oneOf`, which a value of two parts does not fit.  So a value of one part is kept
exactly if every other part refuses it (`validates_written_iff`); two items of one type are enough
to lose values (`not_validates_equal_parts`).
-/

namespace OpenApi

theorem getElem?_of_forall₂ {α β : Type} {R : α → β → Prop} {xs : List α} {ys : List β}
    (h : List.Forall₂ R xs ys) {k : ℕ} {y : β} (hy : ys[k]? = some y) :
    ∃ x, xs[k]? = some x ∧ R x y := by
  induction h generalizing k with
  | nil => cases hy
  | @cons a b xs ys hab _ ih =>
    rcases k with _ | k
    · rw [List.getElem?_cons_zero] at hy
      exact ⟨a, List.getElem?_cons_zero, Option.some.inj hy ▸ hab⟩
    · rw [List.getElem?_cons_succ] at hy ⊢
      exact ih hy

/-- **How a value of a variant is written**, given that of its payload.  The internal tagging writes
into the payload instead. -/
inductive Tagging.Writes (name : String) (v : Value) : Tagging → Value → Prop
  | external : Writes name v .external (.object [(name, v)])
  | adjacent (tagKey contentKey : String) :
    Writes name v (.adjacent tagKey contentKey)
      (.object [(tagKey, .string name), (contentKey, v)])
  | untagged : Writes name v .untagged v

namespace Lowering

theorem tuple_eq_ok {path : DescriptorPath} {description : Option String} {nonempty : Bool}
    {members : Lowering (List Schema)} {s : Schema}
    (h : (tuple path description nonempty members).outcome = .ok s) :
    ∃ ss, members.outcome = .ok ss ∧
      s = Schema.array (Schema.composite .oneOf ss none) description := by
  obtain ⟨_, -, h⟩ := Journal.bind_eq_ok_iff.mp h
  obtain ⟨ss, hss, hs⟩ := Journal.bind_eq_ok_iff.mp h
  exact ⟨ss, hss, (Except.ok.inj hs).symm⟩

end Lowering

/-! ## Values in the schemas that hold alternatives -/

namespace Registry

variable {r : Registry} {ss : List Schema} {description : Option String} {v : Value}

theorem validates_array_oneOf_iff {vs : List Value} (h : List.Forall₂ r.Validates ss vs) :
    r.Validates (.array (.composite .oneOf ss none) description) (.array vs) ↔
      ∀ (k : ℕ) v, vs[k]? = some v → ∀ t ∈ ss.eraseIdx k, r.Refuses t v := by
  have hmem : r.Validates (.array (.composite .oneOf ss none) description) (.array vs) ↔
      ∀ (k : ℕ) v, vs[k]? = some v → r.Validates (.composite .oneOf ss none) v := by
    rw [validates_array_iff]
    constructor
    · rintro ⟨xs, hxs, hall⟩ k v hv
      obtain rfl := Value.array.inj hxs
      exact hall v (List.mem_of_getElem? hv)
    · intro hall
      refine ⟨vs, rfl, fun v hv => ?_⟩
      obtain ⟨k, hk⟩ := List.mem_iff_getElem?.mp hv
      exact hall k v hk
  rw [hmem]
  refine forall_congr' fun k => forall_congr' fun v => imp_congr_right fun hv => ?_
  obtain ⟨s, hs, hsv⟩ := getElem?_of_forall₂ h hv
  exact validates_oneOf_iff hs hsv

theorem validates_externalObject_iff {name : String} :
    r.Validates (Variant.externalObject ss description) (.object [(name, v)]) ↔
      r.Validates (.composite .oneOf ss description) v := by
  rw [Variant.externalObject, validates_mapOf_iff]
  constructor
  · rintro ⟨ms, hms, hall⟩
    obtain rfl := Value.object.inj hms
    exact hall _ (List.mem_singleton.mpr rfl)
  · intro hv
    refine ⟨_, rfl, fun m hm => ?_⟩
    obtain rfl := List.mem_singleton.mp hm
    exact hv

theorem validates_adjacentObject_iff {tagKey contentKey name enum : String} {names : List String}
    (hkeys : tagKey ≠ contentKey) (hname : name ∈ names) :
    r.Validates
        (Variant.adjacentObject tagKey contentKey (Variant.tagProperty enum names) ss description)
        (.object [(tagKey, .string name), (contentKey, v)]) ↔
      r.Validates (.composite .oneOf ss description) v := by
  have htag : r.Validates (Variant.tagProperty enum names) (.string name) :=
    validates_stringOf_iff.mpr ⟨name, hname, rfl⟩
  rw [Variant.adjacentObject, validates_object_iff]
  constructor
  · rintro ⟨ms, hms, -, htyped⟩
    obtain rfl := Value.object.inj hms
    exact htyped _ (List.mem_cons_of_mem _ (List.mem_singleton.mpr rfl)) (contentKey, v)
      (List.mem_cons_of_mem _ (List.mem_singleton.mpr rfl)) rfl
  · intro hv
    refine ⟨_, rfl, by simp, ?_⟩
    simp only [List.mem_cons, List.not_mem_nil, or_false]
    rintro p (rfl | rfl) m (rfl | rfl) hm
    · exact htag
    · exact absurd hm hkeys.symm
    · exact absurd hm hkeys
    · exact hv

end Registry

/-! ## Tuples and enums -/

namespace Descriptor

variable {path : DescriptorPath} {s : Schema}

/-- **A tuple keeps the values whose elements no other item takes.** -/
theorem validates_array_of_tuple {embed : Bool} {items : List (TupleItem Descriptor)}
    (h : ((tuple items).lower embed path).outcome = .ok s) :
    ∃ ss, Beside (lowerItem false path) items.zipIdx ss ∧
      ∀ (r : Registry) vs, List.Forall₂ r.Validates ss vs →
        (r.Validates s (.array vs) ↔
          ∀ (k : ℕ) v, vs[k]? = some v → ∀ t ∈ ss.eraseIdx k, r.Refuses t v) := by
  rw [lower] at h
  obtain ⟨ss, hss, rfl⟩ := Lowering.tuple_eq_ok h
  rw [lowerItems_eq_sequence] at hss
  exact ⟨ss, beside_of_sequence hss, fun r vs hvs => Registry.validates_array_oneOf_iff hvs⟩

theorem beside_payloads {variants : List (Variant Descriptor)} {ss : List Schema}
    (hall : ∀ x ∈ Variant.serialized variants, x.hasPayload = true)
    (h : Beside (lowerBranch path) (Variant.serialized variants) ss) :
    Beside (fun x => lowerPayload (path.enter x.name) x) (Variant.serialized variants) ss := by
  refine ((List.forall₂_and_left _ _).mpr ⟨hall, h⟩).imp fun x t ⟨hx, ht⟩ => ?_
  rwa [lowerBranch, if_pos hx] at ht

/-- **An enum keeps the values of a variant that no other variant takes.** -/
theorem validates_written {name : String} {tagging : Tagging}
    {variants : List (Variant Descriptor)} {description : Option String}
    (hall : ∀ x ∈ Variant.serialized variants, x.hasPayload = true)
    (htagging : ∀ tagKey, tagging ≠ .internal tagKey)
    (h : Layout name path variants description tagging s) :
    ∃ ss, Beside (fun x => lowerPayload (path.enter x.name) x) (Variant.serialized variants) ss ∧
      ∀ (r : Registry) (k : ℕ) x t v w, (Variant.serialized variants)[k]? = some x →
        ss[k]? = some t → r.Validates t v → tagging.Writes x.name v w →
          (r.Validates s w ↔ ∀ u ∈ ss.eraseIdx k, r.Refuses u v) := by
  have hfilter : (Variant.serialized variants).filter (·.hasPayload) =
      Variant.serialized variants := List.filter_eq_self.mpr hall
  cases tagging with
  | external =>
    obtain ⟨ss, hss, rfl⟩ := h
    refine ⟨ss, beside_payloads hall hss, ?_⟩
    rintro r k x t v _ - ht hv ⟨⟩
    rw [Registry.validates_externalObject_iff, Registry.validates_oneOf_iff ht hv]
  | internal tagKey => exact absurd rfl (htagging tagKey)
  | adjacent tagKey contentKey =>
    obtain ⟨hkeys, ss, hss, rfl⟩ := h
    rw [hfilter] at hss
    refine ⟨ss, hss, ?_⟩
    rintro r k x t v _ hx ht hv ⟨⟩
    have hname := List.mem_map_of_mem (f := Variant.name) (List.mem_of_getElem? hx)
    rw [Registry.validates_adjacentObject_iff hkeys hname, Registry.validates_oneOf_iff ht hv]
  | untagged =>
    obtain ⟨ss, hss, rfl⟩ := h
    rw [hfilter] at hss
    refine ⟨ss, hss, ?_⟩
    rintro r k x t v _ - ht hv ⟨⟩
    exact Registry.validates_oneOf_iff ht hv

end Descriptor

open Descriptor in
/-- **Tuples and tagged enums keep the values that belong to one part only.**  An array of values of
the items of a tuple validates exactly if the other items refuse each of them, and a value of a
variant, written as the tagging of the enum says, exactly if the other variants refuse it. -/
theorem validates_written_iff (r₀ : Registry) :
    (∀ items s, (r₀.synthesize (.tuple items)).2 = .ok s →
      ∃ ss, Beside (lowerItem false []) items.zipIdx ss ∧
        ∀ (r : Registry) vs, List.Forall₂ r.Validates ss vs →
          (r.Validates s (.array vs) ↔
            ∀ (k : ℕ) v, vs[k]? = some v → ∀ t ∈ ss.eraseIdx k, r.Refuses t v)) ∧
      ∀ name tagging variants description s,
        (∀ x ∈ Variant.serialized variants, x.hasPayload = true) →
        (∀ tagKey, tagging ≠ .internal tagKey) →
        (r₀.synthesize (.enum name tagging variants description)).2 = .ok s →
          ∃ ss, Beside (fun x => lowerPayload [name, x.name] x) (Variant.serialized variants) ss ∧
            ∀ (r : Registry) (k : ℕ) x t v w, (Variant.serialized variants)[k]? = some x →
              ss[k]? = some t → r.Validates t v → tagging.Writes x.name v w →
                (r.Validates s w ↔ ∀ u ∈ ss.eraseIdx k, r.Refuses u v) := by
  constructor
  · intro items s h
    exact validates_array_of_tuple (Registry.outcome_of_synthesize h)
  · intro name tagging variants description s hall htagging h
    have hlower := Registry.outcome_of_synthesize h
    have hpayload : ∃ x ∈ Variant.serialized variants, x.hasPayload = true := by
      obtain ⟨x, hx⟩ := List.exists_mem_of_ne_nil _ (live_of_lower hlower).1
      exact ⟨x, hx, hall x hx⟩
    exact validates_written hall htagging (layout_of_lower hpayload hlower)

/-! ## Parts that take the same values -/

namespace Descriptor

/-- Two values in a row. -/
def pair (d e : Descriptor) : Descriptor := .tuple [{ type := d }, { type := e }]

/-- One of two values. -/
def either (tagging : Tagging) (d e : Descriptor) : Descriptor :=
  .enum "E" tagging [.ofNewtype "A" d none false false, .ofNewtype "B" e none false false] none

end Descriptor

/-- A text is refused where a number is asked for, and a number where a text is. -/
theorem refuses_other_scalar (r : Registry) :
    r.Refuses (.primitive "number" none) (.string "a") ∧
      r.Refuses (.primitive "string" none) (.number 1) := by
  constructor <;> refine Filter.Eventually.of_forall fun depth => Bool.eq_false_iff.mpr ?_
  · rw [Ne, Schema.accepts_primitive_iff]
    decide
  · rw [Ne, Schema.accepts_primitive_iff]
    decide

open Descriptor in
/-- Texts beside numbers are kept, as items of a tuple and as payloads of an enum. -/
theorem validates_written_iff_string_number :
    (∃ s, (Registry.synthesize {} (pair (string none) (number none))).2 = .ok s ∧
      Registry.Validates {} s (.array [.string "a", .number 1])) ∧
    ∃ s, (Registry.synthesize {} (either .external (string none) (number none))).2 = .ok s ∧
      Registry.Validates {} s (.object [("A", .string "a")]) := by
  obtain ⟨hrefuses, hrefuses'⟩ := refuses_other_scalar {}
  have htext : Registry.Validates {} (.primitive "string" none) (.string "a") :=
    Registry.validates_primitive_iff.mpr rfl
  have hnumber : Registry.Validates {} (.primitive "number" none) (.number 1) :=
    Registry.validates_primitive_iff.mpr rfl
  constructor
  · obtain ⟨s, hs⟩ : ∃ s, (Registry.synthesize {} (pair (string none) (number none))).2 = .ok s :=
      ⟨_, rfl⟩
    obtain ⟨ss, hss, hiff⟩ := (validates_written_iff {}).1 _ _ hs
    obtain rfl := hss.eq_of (.cons rfl (.cons rfl .nil))
    refine ⟨s, hs, (hiff {} _ (.cons htext (.cons hnumber .nil))).mpr ?_⟩
    rintro (_ | _ | k) v hv t ht
    · obtain rfl := Option.some.inj hv
      obtain rfl := List.mem_singleton.mp ht
      exact hrefuses
    · obtain rfl := Option.some.inj hv
      obtain rfl := List.mem_singleton.mp ht
      exact hrefuses'
    · cases hv
  · obtain ⟨s, hs⟩ : ∃ s,
        (Registry.synthesize {} (either .external (string none) (number none))).2 = .ok s :=
      ⟨_, rfl⟩
    obtain ⟨ss, hss, hiff⟩ :=
      (validates_written_iff {}).2 "E" .external _ none _ (by decide) nofun hs
    obtain rfl := hss.eq_of (.cons rfl (.cons rfl .nil))
    refine ⟨s, hs, (hiff {} 0 _ _ (.string "a") _ rfl rfl htext .external).mpr fun t ht => ?_⟩
    obtain rfl := List.mem_singleton.mp ht
    exact hrefuses

/-- A value of two equal members fits both, so it is lost. -/
theorem Registry.not_validates_oneOf_same {r : Registry} {s : Schema} {v : Value}
    {description : Option String} (h : r.Validates s v) :
    ¬ r.Validates (.composite .oneOf [s, s] description) v := by
  intro hv
  have hrefuses := (validates_oneOf_iff (k := 0) rfl h).mp hv s (List.mem_singleton.mpr rfl)
  exact hrefuses.not_validates h

open Descriptor in
/-- **Equal parts lose the values that fit them** — a tuple of two texts admits no pair of texts,
and an enum of two texts no text, however it is tagged. -/
theorem not_validates_equal_parts :
    (∃ s t, (Registry.synthesize {} (pair (string none) (string none))).2 = .ok s ∧
      Beside (lowerItem false []) [({ type := string none }, 0), ({ type := string none }, 1)]
        [t, t] ∧
      Registry.Validates {} t (.string "a") ∧
      ¬ Registry.Validates {} s (.array [.string "a", .string "a"])) ∧
    ∀ tagging ∈ [Tagging.external, .adjacent "t" "c", .untagged], ∃ s t w,
      (Registry.synthesize {} (either tagging (string none) (string none))).2 = .ok s ∧
      (lowerPayload ["E", "A"] (.ofNewtype "A" (string none) none false false)).outcome = .ok t ∧
      Registry.Validates {} t (.string "a") ∧ tagging.Writes "A" (.string "a") w ∧
      ¬ Registry.Validates {} s w := by
  have htext : Registry.Validates {} (.primitive "string" none) (.string "a") :=
    Registry.validates_primitive_iff.mpr rfl
  have hlost : ¬ Registry.Validates {} (.composite .oneOf
      [.primitive "string" none, .primitive "string" none] none) (.string "a") :=
    Registry.not_validates_oneOf_same htext
  constructor
  · refine ⟨_, _, rfl, .cons rfl (.cons rfl .nil), htext, fun hv => hlost ?_⟩
    obtain ⟨xs, hxs, hall⟩ := Registry.validates_array_iff.mp hv
    obtain rfl := Value.array.inj hxs
    exact hall _ List.mem_cons_self
  · intro tagging htagging
    simp only [List.mem_cons, List.not_mem_nil, or_false] at htagging
    rcases htagging with rfl | rfl | rfl
    · refine ⟨_, _, _, rfl, rfl, htext, .external, fun hv => hlost ?_⟩
      exact Registry.validates_externalObject_iff.mp hv
    · refine ⟨_, _, _, rfl, rfl, htext, .adjacent "t" "c", fun hv => hlost ?_⟩
      exact (Registry.validates_adjacentObject_iff (by decide) (by decide)).mp hv
    · exact ⟨_, _, _, rfl, rfl, htext, .untagged, hlost⟩

end OpenApi
