import OpenApi.Proofs.Registry.Independence
import OpenApi.Proofs.Registry.References

/-!
# Proofs/Registry/Nodes — every node of a synthesized schema fits its kind

    carryOut (lower d) : Filled r ──▸ (schema, entries)      all of them `Throughout`

What a schema says of itself is a matter of one node (`Schema.Regular`), but a schema is a tree.
Well-formed schemas are regular in every node (`WellFormed.throughout`), and registries that nothing
but lowerings have filled hold no others, whatever their paths and use sites (`carryOut_regular`).
-/

namespace OpenApi

namespace Schema

/-! ## Nodes -/

/-- **A node of a schema** — the schema itself, or a node of one that it is made of. -/
inductive Within (t : Schema) : Schema → Prop
  | self : Within t t
  | property {s : Schema} {p : String × Schema} (hp : p ∈ s.properties) (h : Within t p.2) :
    Within t s
  | additional {s a : Schema} (ha : s.additional = some a) (h : Within t a) : Within t s
  | items {s i : Schema} (hi : s.items = some i) (h : Within t i) : Within t s
  | member {s m : Schema} (hm : m ∈ s.members) (h : Within t m) : Within t s

/-- The nodes of a well-formed schema are well formed. -/
theorem WellFormed.within {s t : Schema} (hs : s.WellFormed) (h : t.Within s) : t.WellFormed := by
  induction h with
  | self => exact hs
  | property hp _ ih => exact ih (hs.properties _ hp)
  | additional ha _ ih => exact ih (hs.additional _ ha)
  | items hi _ ih => exact ih (hs.items _ hi)
  | member hm _ ih => exact ih (hs.members _ hm)

/-- **Every node fits its kind**, and the references among them are bare. -/
def Throughout (s : Schema) : Prop :=
  ∀ t : Schema, t.Within s → t.Regular ∧ (t.kind = .ref → ∃ name, t = ref name)

theorem WellFormed.throughout {s : Schema} (h : s.WellFormed) : s.Throughout := fun _ ht =>
  ⟨(h.within ht).regular, (h.within ht).eq_ref⟩

end Schema

/-! ## Registries that lowerings have filled -/

/-- **A registry that nothing but lowerings have filled** — well or in vain, at any path, for use
sites that embed named types and for others. -/
inductive Registry.Filled : Registry → Prop
  | empty : Filled {}
  | lower {r : Registry} (embed : Bool) (path : DescriptorPath) (d : Descriptor) (h : Filled r) :
    Filled (r.carryOut (d.lower embed path)).1

theorem Registry.Filled.wellFormed {r : Registry} (h : r.Filled) : r.WellFormed := by
  induction h with
  | empty => exact fun e he => nomatch he
  | lower embed path d _ ih =>
    rw [carryOut_fst]
    exact ih.registerAll (d.yields_lower embed path).step

/-- **Synthesis makes regular nodes only** — in the schema of a descriptor, at any path and whether
its use site embeds named types or not, and in all that the registry holds then. -/
theorem carryOut_regular {r : Registry} (hr : r.Filled) (d : Descriptor) (embed : Bool)
    (path : DescriptorPath) :
    (∀ s, (r.carryOut (d.lower embed path)).2 = .ok s → s.Throughout) ∧
      ∀ e ∈ (r.carryOut (d.lower embed path)).1.entries, e.2.Throughout := by
  refine ⟨fun s hs => ?_, fun e he => ?_⟩
  · have hrun : r.carryOut (d.lower embed path) =
        ((r.carryOut (d.lower embed path)).1, .ok s) := Prod.ext rfl hs
    have houtcome := (Registry.carryOut_eq_ok_iff.mp hrun).2
    exact ((d.yields_lower embed path).value s houtcome).throughout
  · exact ((Registry.Filled.lower embed path d hr).wellFormed e he).throughout

open Descriptor in
/-- An event is synthesized beside its payload; the reference to the payload is bare. -/
theorem carryOut_regular_event :
    Registry.Filled (Registry.carryOut {} (payload.lower false [])).1 ∧
      ∃ s, ((Registry.carryOut {} (payload.lower false [])).1.carryOut
          (event.lower false [])).2 = .ok s ∧
        s.Throughout ∧ (Schema.ref "Payload").Within s := by
  have hfilled : Registry.Filled (Registry.carryOut {} (payload.lower false [])).1 :=
    .lower false [] payload .empty
  obtain ⟨sent, lost, hs, hsent⟩ : ∃ sent lost,
      ((Registry.carryOut {} (payload.lower false [])).1.carryOut (event.lower false [])).2 =
          .ok (.composite .oneOf [sent, lost] none) ∧ Schema.ref "Payload" ∈ sent.members :=
    ⟨_, _, rfl, List.mem_cons_self⟩
  exact ⟨hfilled, _, hs, (carryOut_regular hfilled event false []).1 _ hs,
    .member List.mem_cons_self (.member hsent .self)⟩

end OpenApi
