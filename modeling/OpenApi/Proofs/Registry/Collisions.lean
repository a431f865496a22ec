import OpenApi.Proofs.Registry.Nodes
import OpenApi.Proofs.Schema.Rendering

/-!
# Proofs/Registry/Collisions — schemas collide if their renderings differ

    register name s,  existing under name
      ├─ renderings alike ──▸ the registry as it was
      ╰─ otherwise ─────────▸ collision name existing s

A registry compares schemas and not their renderings.  On schemas that descriptors are lowered to
this comes to the same, since such schemas are well formed and those are rendered faithfully
(`Schema.WellFormed.distinguished`).
-/

namespace OpenApi

variable {r r' store : Registry} {name : String} {existing s s' : Schema}

namespace Registry

/-! ## Known names -/

theorem register_eq_collision_iff (h : r.get? name = some existing) :
    r.register name s = .error (.collision name existing s) ↔ existing ≠ s := by
  simp [register, h]

theorem register_eq_self_iff (h : r.get? name = some existing) :
    r.register name s = .ok r ↔ existing = s := by
  simp [register, h]

theorem WellFormed.of_get? (hr : r.WellFormed) (h : r.get? name = some existing) :
    existing.WellFormed :=
  hr (name, existing) (Table.mem_of_get?_eq_some h)

end Registry

/-! ## Schemas of descriptors -/

theorem Schema.WellFormed.alike_iff (hs : s.WellFormed) (hs' : s'.WellFormed) :
    s.toJson.Alike s'.toJson ↔ s = s' := by
  refine ⟨hs.distinguished s' hs', ?_⟩
  rintro rfl
  exact .refl _

/-- A lowering that is carried out well ends in a well-formed schema. -/
theorem wellFormed_of_carryOut {d : Descriptor} {embed : Bool} {path : DescriptorPath}
    (h : (r.carryOut (d.lower embed path)).2 = .ok s) : s.WellFormed :=
  (d.yields_lower embed path).value s (Registry.outcome_of_carryOut h)

/-- **Collisions are what a reader of the document would see** — two descriptors' schemas are equal
exactly if they are rendered as equal values, and in a registry that lowerings have filled a
schema is refused under a known name exactly if it is rendered as another value than what is there;
else nothing changes. -/
theorem carryOut_alike_iff {d d' : Descriptor} {embed embed' : Bool} {path path' : DescriptorPath}
    (hs : (r.carryOut (d.lower embed path)).2 = .ok s)
    (hs' : (r'.carryOut (d'.lower embed' path')).2 = .ok s') (hstore : store.Filled) :
    (s.toJson.Alike s'.toJson ↔ s = s') ∧
      ∀ name existing, store.get? name = some existing →
        (store.register name s = .error (.collision name existing s) ↔
          ¬ existing.toJson.Alike s.toJson) ∧
        (store.register name s = .ok store ↔ existing.toJson.Alike s.toJson) := by
  have hwf := wellFormed_of_carryOut hs
  refine ⟨hwf.alike_iff (wellFormed_of_carryOut hs'), fun name existing h => ?_⟩
  have hexisting := hstore.wellFormed.of_get? h
  rw [hexisting.alike_iff hwf, Registry.register_eq_collision_iff h,
    Registry.register_eq_self_iff h]
  exact ⟨Iff.rfl, Iff.rfl⟩

open Descriptor in
/-- What is stored of a payload is its structure: stored again it changes nothing, and a number
under its name is refused. -/
theorem carryOut_alike_iff_payload :
    ∃ (store : Registry) (content number : Schema), store.Filled ∧
      (store.carryOut (payload.lower true [])).2 = .ok content ∧
      (store.carryOut ((Descriptor.primitive .integer none).lower false [])).2 = .ok number ∧
      store.register "Payload" content = .ok store ∧
      store.register "Payload" number = .error (.collision "Payload" content number) := by
  have hstore : Registry.Filled (Registry.carryOut {} (payload.lower false [])).1 :=
    .lower false [] payload .empty
  obtain ⟨content, hcontent, hget⟩ : ∃ content,
      ((Registry.carryOut {} (payload.lower false [])).1.carryOut (payload.lower true [])).2 =
          .ok content ∧
        (Registry.carryOut {} (payload.lower false [])).1.get? "Payload" = some content :=
    ⟨_, rfl, rfl⟩
  have hnumber : ((Registry.carryOut {} (payload.lower false [])).1.carryOut
      ((Descriptor.primitive .integer none).lower false [])).2 =
        .ok (.primitive "integer" none) := rfl
  have hsame := carryOut_alike_iff hcontent hnumber hstore
  have hnum := (carryOut_alike_iff hnumber hnumber hstore).2 _ _ hget
  refine ⟨_, _, _, hstore, hcontent, hnumber, (hsame.2 _ _ hget).2.mpr (.refl _),
    hnum.1.mpr fun halike => ?_⟩
  rw [hsame.1.mp halike] at hget
  cases hget

end OpenApi
