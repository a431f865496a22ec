import OpenApi.Api

/-!
# Proofs/Trees — induction over descriptors and paths

Descriptors and paths are trees whose branches lie in lists and records.  Their recursors have one
motive for each of these; the principles here have a single one, and the hypothesis about a list of
branches is a statement about its elements.
-/

namespace OpenApi

/-- **Induction over descriptors** — the branches of an enum are the items and the fields of its
variants. -/
@[elab_as_elim]
theorem Descriptor.tree {P : Descriptor → Prop}
    (primitive : ∀ kind format, P (.primitive kind format))
    (array : ∀ element, P element → P (.array element))
    (optional : ∀ inner, P inner → P (.optional inner))
    (map : ∀ value, P value → P (.map value))
    (tuple : ∀ items : List (TupleItem Descriptor), (∀ i ∈ items, P i.type) → P (.tuple items))
    (any : P .any)
    (composite : ∀ mode members, (∀ m ∈ members, P m) → P (.composite mode members))
    (object : ∀ name (fields : List (Field Descriptor)), (∀ f ∈ fields, P f.type) →
      P (.object name fields))
    (enum : ∀ name tagging (variants : List (Variant Descriptor)) description,
      (∀ v ∈ variants, (∀ i ∈ v.items, P i.type) ∧ ∀ f ∈ v.fields, P f.type) →
        P (.enum name tagging variants description))
    (named : ∀ name underlying description format sample inline, P underlying →
      P (.named name underlying description format sample inline))
    (reference : ∀ name, P (.reference name)) (d : Descriptor) : P d :=
  Descriptor.rec (motive_1 := P) (motive_2 := fun items => ∀ i ∈ items, P i.type)
    (motive_3 := fun members => ∀ m ∈ members, P m)
    (motive_4 := fun fields => ∀ f ∈ fields, P f.type)
    (motive_5 := fun variants => ∀ v ∈ variants,
      (∀ i ∈ v.items, P i.type) ∧ ∀ f ∈ v.fields, P f.type)
    (motive_6 := fun i => P i.type) (motive_7 := fun f => P f.type)
    (motive_8 := fun v => (∀ i ∈ v.items, P i.type) ∧ ∀ f ∈ v.fields, P f.type)
    primitive array optional map tuple any composite object enum named reference
    (by simp) (fun _ _ hi his => List.forall_mem_cons.mpr ⟨hi, his⟩)
    (by simp) (fun _ _ hm hms => List.forall_mem_cons.mpr ⟨hm, hms⟩)
    (by simp) (fun _ _ hf hfs => List.forall_mem_cons.mpr ⟨hf, hfs⟩)
    (by simp) (fun _ _ hv hvs => List.forall_mem_cons.mpr ⟨hv, hvs⟩)
    (fun _ _ h => h) (fun _ _ _ _ _ _ h => h) (fun _ _ _ _ _ _ _ hi hf => ⟨hi, hf⟩) d

/-- **Induction over paths** — the branches of a path are the paths in the callbacks of its
operations. -/
@[elab_as_elim]
theorem Path.tree {P : Path → Prop}
    (node : ∀ p : Path, (∀ o ∈ p.operations, ∀ c ∈ o.2.callbacks, ∀ q ∈ c.2, P q) → P p)
    (p : Path) : P p :=
  Path.rec (motive_1 := P)
    (motive_2 := fun os => ∀ o ∈ os, ∀ c ∈ o.2.callbacks, ∀ q ∈ c.2, P q)
    (motive_3 := fun o => ∀ c ∈ o.2.callbacks, ∀ q ∈ c.2, P q)
    (motive_4 := fun o => ∀ c ∈ o.callbacks, ∀ q ∈ c.2, P q)
    (motive_5 := fun cs => ∀ c ∈ cs, ∀ q ∈ c.2, P q)
    (motive_6 := fun c => ∀ q ∈ c.2, P q) (motive_7 := fun qs => ∀ q ∈ qs, P q)
    (fun segments operations parameters summary description h =>
      node ⟨segments, operations, parameters, summary, description⟩ h)
    (by simp) (fun _ _ ho hos => List.forall_mem_cons.mpr ⟨ho, hos⟩)
    (fun _ _ h => h) (fun _ _ _ _ _ _ _ _ _ _ h => h)
    (by simp) (fun _ _ hc hcs => List.forall_mem_cons.mpr ⟨hc, hcs⟩)
    (fun _ _ h => h)
    (by simp) (fun _ _ hq hqs => List.forall_mem_cons.mpr ⟨hq, hqs⟩) p

end OpenApi
