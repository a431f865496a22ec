import OpenApi.Descriptor.Builtin
import OpenApi.Proofs.Assembly.Confluence
import OpenApi.Proofs.Journal.Akin
import OpenApi.Proofs.Registry.Values

/-!
# Proofs/Registry/Independence — synthesis does not look at what is stored

    descriptors ──lower──▸ schemas, definitions ──registerAll──▸ registry
         ╎                    ╎                                     ╎
      permuted             permuted                               `Same`
         ╎                    ╎                                     ╎
    descriptors ──lower──▸ schemas, definitions ──registerAll──▸ registry

To synthesize some descriptors is to carry out the sequence of their lowerings
(`synthesizeAll_eq_carryOut`), and a lowering is fixed by its descriptor.  So the order of the
descriptors is an order of definitions, which does not matter to what is stored in the end
(`synthesizeAll_perm`).
-/

namespace OpenApi

namespace Registry

variable {α β : Type} {r r' s : Registry}

/-! ## Carrying out one lowering after another -/

/-- Definitions are stored one list after another, unless one of the first is refused. -/
theorem registerAll_append (r : Registry) (defs defs' : List Definition) :
    r.registerAll (defs ++ defs') =
      match r.registerAll defs with
      | (r', .error e) => (r', .error e)
      | (r', .ok ()) => r'.registerAll defs' := by
  induction defs generalizing r with
  | nil => rfl
  | cons x defs ih =>
    rw [List.cons_append, registerAll, registerAll]
    cases r.register x.name x.schema with
    | ok r₁ => exact ih r₁
    | error e => rfl

/-- **One lowering after another is carried out one after the other** — a refusal or a failure ends
both. -/
theorem carryOut_bind (r : Registry) (l : Lowering α) (f : α → Lowering β) :
    r.carryOut (l >>= f) =
      match r.carryOut l with
      | (r', .error e) => (r', .error e)
      | (r', .ok a) => r'.carryOut (f a) := by
  obtain ⟨defs, o⟩ := l
  cases o with
  | error e =>
    rw [Journal.bind_of_error rfl, carryOut, carryOut]
    dsimp only
    split <;> rfl
  | ok a =>
    rw [Journal.bind_of_ok rfl, carryOut, carryOut, registerAll_append]
    dsimp only
    obtain ⟨r₁, _ | _⟩ := r.registerAll defs <;> rfl

/-- **Synthesis is lowering, then storing** — nothing that is stored is looked at in between. -/
theorem synthesizeAll_eq_carryOut (r : Registry) (ds : List Descriptor) :
    r.synthesizeAll ds = r.carryOut (Journal.sequence (ds.map (·.lower false []))) := by
  induction ds generalizing r with
  | nil => rfl
  | cons d ds ih =>
    rw [List.map_cons, Journal.sequence, carryOut_bind, synthesizeAll, synthesize]
    obtain ⟨r₁, e | s⟩ := r.carryOut (d.lower false [])
    · rfl
    · dsimp only
      rw [ih r₁, carryOut_bind]
      generalize r₁.carryOut (Journal.sequence (ds.map (·.lower false []))) = end₁
      obtain ⟨r₂, e | ss⟩ := end₁ <;> rfl

theorem carryOut_eq_ok_iff {l : Lowering α} {a : α} :
    r.carryOut l = (r', .ok a) ↔ r.registerAll l.steps = (r', .ok ()) ∧ l.outcome = .ok a := by
  rw [carryOut]
  split
  · next hs => simp [hs]
  · next hs => simp [hs, Journal.mapError_eq_ok_iff]

/-- A lowering that is carried out well has ended well itself. -/
theorem outcome_of_carryOut {l : Lowering α} {a : α} (h : (r.carryOut l).2 = .ok a) :
    l.outcome = .ok a := by
  have hr : r.carryOut l = ((r.carryOut l).1, .ok a) := Prod.ext rfl h
  exact (carryOut_eq_ok_iff.mp hr).2

/-- A synthesis that ended well ended in the schema of its descriptor. -/
theorem outcome_of_synthesize {d : Descriptor} {schema : Schema}
    (h : (r.synthesize d).2 = .ok schema) : (d.lower false []).outcome = .ok schema :=
  outcome_of_carryOut h

/-! ## Definitions in another order -/

/-- **Two registries hold the same** — in whatever order it came in. -/
structure Same (r s : Registry) : Prop where
  frozen : r.frozen = s.frozen
  entries : Table.Same r.entries s.entries

theorem Same.refl (r : Registry) : r.Same r := ⟨rfl, .refl _⟩

theorem Same.all_eq (h : r.Same s) : r.all = s.all := h.entries.sorted

/-- Definitions are stored iff they can join the entries one after the other. -/
theorem registerAll_eq_ok_iff_joinAll {defs : List Definition} :
    r.registerAll defs = (r', .ok ()) ↔
      Table.JoinAll (fun p => r.Admits p.1 p.2) r.entries (defs.map fun x => (x.name, x.schema))
        r'.entries ∧ r'.frozen = r.frozen := by
  induction defs generalizing r with
  | nil =>
    rw [List.map_nil, Table.joinAll_nil, registerAll]
    constructor
    · intro h
      obtain rfl := (Prod.mk.inj h).1
      exact ⟨rfl, rfl⟩
    · rintro ⟨he, hf⟩
      obtain ⟨entries, frozen⟩ := r'
      obtain rfl : entries = r.entries := he
      obtain rfl : frozen = r.frozen := hf
      rfl
  | cons x defs ih =>
    rw [List.map_cons, Table.joinAll_cons, registerAll]
    constructor
    · intro h
      split at h
      · next r₁ hx =>
        obtain ⟨hj, hf⟩ := register_eq_ok_iff_joins.mp hx
        obtain ⟨hjs, hf'⟩ := ih.mp h
        rw [admits_congr hf] at hjs
        exact ⟨⟨r₁.entries, hj, hjs⟩, hf'.trans hf⟩
      · cases h
    · rintro ⟨⟨t, hj, hjs⟩, hf⟩
      have hx : r.register x.name x.schema = .ok ⟨t, r.frozen⟩ :=
        register_eq_ok_iff_joins.mpr ⟨hj, rfl⟩
      rw [hx]
      exact ih.mpr ⟨hjs, hf⟩

/-- **Definitions may be stored in any order** — also in a registry that holds the same. -/
theorem registerAll_perm {defs defs' : List Definition} (h : r.registerAll defs = (r', .ok ()))
    (hp : defs.Perm defs') (hrs : r.Same s) :
    ∃ s', s.registerAll defs' = (s', .ok ()) ∧ r'.Same s' := by
  obtain ⟨hjs, hf⟩ := registerAll_eq_ok_iff_joinAll.mp h
  obtain ⟨t, ht, hsame⟩ := hjs.perm (hp.map _) hrs.entries
  rw [admits_congr hrs.frozen] at ht
  exact ⟨⟨t, s.frozen⟩, registerAll_eq_ok_iff_joinAll.mpr ⟨ht, rfl⟩, hf.trans hrs.frozen, hsame⟩

/-- **Lowerings that come to the same are carried out to the same.** -/
theorem carryOut_akin {R : α → β → Prop} {l : Lowering α} {l' : Lowering β}
    (h : Journal.Akin R l l') (r : Registry) :
    (∃ e e', (r.carryOut l).2 = .error e ∧ (r.carryOut l').2 = .error e') ∨
      ∃ r₁ a r₂ b, r.carryOut l = (r₁, .ok a) ∧ r.carryOut l' = (r₂, .ok b) ∧ R a b ∧
        r₁.Same r₂ := by
  have hfail : ∀ {γ : Type} (defs : List Definition) (e : UnsupportedShape), ∃ e',
      (r.carryOut (⟨defs, .error e⟩ : Lowering γ)).2 = .error e' := by
    intro γ defs e
    rw [carryOut]
    dsimp only
    obtain ⟨r₁, d | _⟩ := r.registerAll defs
    · exact ⟨.registry d, rfl⟩
    · exact ⟨.shape e, rfl⟩
  obtain @⟨defs, defs', a, b, hp, hab⟩ | @⟨defs, defs', d, e⟩ := h
  · -- one of the two is carried out only if the other one is
    rcases hr : r.registerAll defs with ⟨r₁, d | _⟩
    · rcases hr' : r.registerAll defs' with ⟨r₂, e | _⟩
      · exact Or.inl ⟨_, _, by rw [carryOut, hr], by rw [carryOut, hr']⟩
      · obtain ⟨r₃, hr₃, -⟩ := registerAll_perm hr' hp.symm (.refl r)
        rw [hr] at hr₃
        cases hr₃
    · obtain ⟨r₂, hr₂, hsame⟩ := registerAll_perm hr hp (.refl r)
      exact Or.inr ⟨r₁, a, r₂, b, carryOut_eq_ok_iff.mpr ⟨hr, rfl⟩,
        carryOut_eq_ok_iff.mpr ⟨hr₂, rfl⟩, hab, hsame⟩
  · obtain ⟨d', hd⟩ := hfail defs d
    obtain ⟨e', he⟩ := hfail defs' e
    exact Or.inl ⟨d', e', hd, he⟩

end Registry

/-! ## Descriptors in another order -/

/-- The schema of a descriptor, if it has one. -/
def Descriptor.schema? (d : Descriptor) : Option Schema := (d.lower false []).outcome.toOption

/-- The schemas that some descriptors are synthesized to are fixed by them. -/
theorem eq_map_of_synthesizeAll {r r' : Registry} {ds : List Descriptor} {ss : List Schema}
    (h : r.synthesizeAll ds = (r', .ok ss)) : ss = ds.map fun d => d.schema?.getD .any := by
  rw [Registry.synthesizeAll_eq_carryOut, Registry.carryOut_eq_ok_iff] at h
  have hss := List.forall₂_map_left_iff.mp (Journal.sequence_eq_ok_iff.mp h.2)
  rw [← List.forall₂_eq_eq_eq, List.forall₂_map_right_iff]
  refine hss.flip.imp fun s d hd => ?_
  rw [Descriptor.schema?, hd]
  rfl

/-- **Synthesis does not depend on what is already stored.**  Descriptors that are synthesized one
after the other, and the same descriptors in another order, fail in both orders or end well in both;
then each of them has the same schema in both and the registries hold the same.  Two registries
never make different schemas of one descriptor. -/
theorem synthesizeAll_perm {ds ds' : List Descriptor} (h : ds.Perm ds') (r : Registry) :
    ((∃ e e', (r.synthesizeAll ds).2 = .error e ∧ (r.synthesizeAll ds').2 = .error e') ∨
      ∃ (schema : Descriptor → Schema) (r₁ r₂ : Registry),
        r.synthesizeAll ds = (r₁, .ok (ds.map schema)) ∧
        r.synthesizeAll ds' = (r₂, .ok (ds'.map schema)) ∧ r₁.all = r₂.all) ∧
      ∀ (d : Descriptor) (r₁ r₂ : Registry) (s₁ s₂ : Schema),
        (r₁.synthesize d).2 = .ok s₁ → (r₂.synthesize d).2 = .ok s₂ → s₁ = s₂ := by
  refine ⟨?_, fun d r₁ r₂ s₁ s₂ h₁ h₂ => ?_⟩
  · have hakin := Journal.Akin.sequence_perm (h.map fun d => d.lower false [])
    rcases Registry.carryOut_akin hakin r with ⟨e, e', he, he'⟩ | ⟨r₁, ss, r₂, ss', h₁, h₂, -, hs⟩
    · rw [← Registry.synthesizeAll_eq_carryOut] at he he'
      exact Or.inl ⟨e, e', he, he'⟩
    · rw [← Registry.synthesizeAll_eq_carryOut] at h₁ h₂
      obtain rfl := eq_map_of_synthesizeAll h₁
      obtain rfl := eq_map_of_synthesizeAll h₂
      exact Or.inr ⟨_, r₁, r₂, h₁, h₂, hs.all_eq⟩
  · have ho := (Registry.outcome_of_synthesize h₁).symm.trans (Registry.outcome_of_synthesize h₂)
    exact Except.ok.inj ho

namespace Descriptor

/-- A named structure of one text. -/
def payload : Descriptor :=
  .named "Payload" (.object none [{ name := "id", type := string none }]) none none none false

/-- A sum type whose tag joins a reference to the payload. -/
def event : Descriptor :=
  .enum "Event" (.internal "kind")
    [.ofNewtype "Sent" (.reference "Payload") none false false, .ofUnit "Lost" none false] none

end Descriptor

open Descriptor in
/-- An event may be synthesized before the payload that it refers to, or after it. -/
theorem synthesizeAll_perm_event :
    [event, payload].Perm [payload, event] ∧ ∃ (schema : Descriptor → Schema) (r₁ r₂ : Registry),
      Registry.synthesizeAll {} [event, payload] = (r₁, .ok ([event, payload].map schema)) ∧
      Registry.synthesizeAll {} [payload, event] = (r₂, .ok ([payload, event].map schema)) ∧
      r₁.all = r₂.all := by
  have hperm : [event, payload].Perm [payload, event] := .swap _ _ _
  refine ⟨hperm, ?_⟩
  obtain ⟨⟨e, -, he, -⟩ | h, -⟩ := synthesizeAll_perm hperm {}
  · have hok : (Registry.synthesizeAll {} [event, payload]).2.isOk = true := rfl
    rw [he] at hok
    cases hok
  · exact h

end OpenApi
