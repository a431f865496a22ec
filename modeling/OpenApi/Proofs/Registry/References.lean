import Mathlib.Order.Bounds.Basic
import OpenApi.Proofs.Assembly.Parts
import OpenApi.Proofs.Lowering.WellFormed
import OpenApi.Proofs.Registry.Growth
import OpenApi.Proofs.Schema.References

/-!
# Proofs/Registry/References — the references in a registry

`check` refuses the least name that is referred to and not stored (`check_eq_error_iff`).  The
schemas in a registry come from lowered descriptors, so they are well formed whatever has been done
to it (`Reachable.wellFormed`), and what their renderings refer to is what the check has looked at.
-/

namespace OpenApi

namespace Registry

/-! ## The check of references -/

/-- **A name is missing** — a stored schema or a given one refers to it, and it is not stored. -/
def Misses (r : Registry) (schemas : List Schema) (name : String) : Prop :=
  ((∃ e ∈ r.entries, name ∈ e.2.references) ∨ ∃ s ∈ schemas, name ∈ s.references) ∧
    name ∉ r.names

theorem contains_iff {r : Registry} {name : String} : r.contains name = true ↔ name ∈ r.names :=
  Table.get?_isSome_iff

theorem mem_danglingNames {r : Registry} {schemas : List Schema} {name : String} :
    name ∈ r.danglingNames schemas ↔ r.Misses schemas name := by
  have hnames : (!r.contains name) = true ↔ name ∉ r.names := by
    rw [← contains_iff, Bool.not_eq_true', Bool.not_eq_true]
  simp only [danglingNames, mem_sortOn, mem_distinct, List.mem_filter, hnames, Misses,
    Schema.mem_memberReferences, List.mem_append, List.mem_map, or_and_right, exists_or,
    exists_exists_and_eq_and]

/-- The missing names are listed in ascending order. -/
theorem pairwise_danglingNames (r : Registry) (schemas : List Schema) :
    (r.danglingNames schemas).Pairwise (· ≤ ·) := pairwise_sortOn id _

theorem check_eq_ok_iff {r : Registry} {schemas : List Schema} :
    r.check schemas = .ok () ↔ ∀ name, ¬ r.Misses schemas name := by
  simp only [← mem_danglingNames]
  rw [check]
  split
  · next h => simp [h]
  · next name names h =>
    rw [h]
    exact ⟨fun he => (nomatch he), fun hn => absurd List.mem_cons_self (hn name)⟩

/-- The first element of an ascending list is the least. -/
theorem isLeast_of_pairwise {name : String} {names : List String}
    (h : (name :: names).Pairwise (· ≤ ·)) : IsLeast {n | n ∈ name :: names} name := by
  refine ⟨List.mem_cons_self, fun n hn => ?_⟩
  rcases List.mem_cons.mp hn with rfl | hn
  · exact le_refl _
  · exact (List.pairwise_cons.mp h).1 n hn

/-- **The check refuses the least missing name** — in the order of code points. -/
theorem check_eq_error_iff {r : Registry} {schemas : List Schema} {e : RegistryError} :
    r.check schemas = .error e ↔
      ∃ name, e = .dangling name ∧ IsLeast {n | r.Misses schemas n} name := by
  have hsorted := pairwise_danglingNames r schemas
  simp only [← mem_danglingNames]
  rw [check]
  split
  · next h => simp [h, IsLeast]
  · next name names h =>
    rw [h] at hsorted ⊢
    have hleast := isLeast_of_pairwise hsorted
    constructor
    · intro he
      exact ⟨name, (Except.error.inj he).symm, hleast⟩
    · rintro ⟨n, rfl, hn⟩
      rw [hn.unique hleast]

/-! ## Well-formed registries -/

/-- Every stored schema is well formed. -/
def WellFormed (r : Registry) : Prop := ∀ e ∈ r.entries, e.2.WellFormed

namespace WellFormed

variable {r s : Registry}

theorem register {name : String} {schema : Schema} (h : r.WellFormed) (hs : schema.WellFormed)
    (hr : r.register name schema = .ok s) : s.WellFormed := by
  rcases register_eq_ok_iff.mp hr with ⟨-, rfl⟩ | ⟨-, -, rfl⟩
  · exact h
  · intro e he
    rcases List.mem_append.mp he with he | he
    · exact h e he
    · obtain rfl := List.mem_singleton.mp he
      exact hs

theorem registerAll {ds : List Definition} (h : r.WellFormed)
    (hds : ∀ d ∈ ds, d.schema.WellFormed) : (r.registerAll ds).1.WellFormed := by
  induction ds generalizing r with
  | nil => exact h
  | cons d ds ih =>
    obtain ⟨hd, hds⟩ := List.forall_mem_cons.mp hds
    rw [Registry.registerAll]
    split
    · next s hs => exact ih (h.register hd hs) hds
    · exact h

theorem synthesize (h : r.WellFormed) (d : Descriptor) : (r.synthesize d).1.WellFormed := by
  rw [Registry.synthesize, carryOut_fst]
  exact h.registerAll (d.yields_lower false []).step

theorem freeze (h : r.WellFormed) : r.freeze.WellFormed := h

end WellFormed

end Registry

/-! ## The steps of a build -/

/-- The schema that a step brings along, to store it or to note it, is well formed. -/
def Step.WellFormed : Step → Prop
  | .define d => d.schema.WellFormed
  | .emit schema => schema.WellFormed
  | _ => True

theorem Step.covers_wellFormed : Step.Covers Step.WellFormed where
  descriptor d := by
    have hlower : ((d.lower false []).embed Step.define AssemblyError.shape).Ensures
        Step.WellFormed Schema.WellFormed := (d.yields_lower false []).embed fun _ hs => hs
    have hrender : (renderDescriptor d).Ensures Step.WellFormed fun _ => True :=
      .bind hlower fun schema hs => .bind (.tell (Q := fun _ => True) hs trivial)
        fun _ _ => .pure trivial
    exact hrender.step
  declare _ _ := trivial
  refer _ := trivial

namespace Build

theorem wellFormed_of_step {b b' : Build} {s : Step} (h : b.registry.WellFormed)
    (hs : s.WellFormed) (hb : b.step s = .ok b') : b'.registry.WellFormed := by
  rcases step_eq_ok hb with ⟨d, r, rfl, hr, rfl⟩ | ⟨_, -, rfl⟩ | ⟨_, _, -, ⟨-, rfl⟩ | ⟨-, rfl⟩⟩ |
    ⟨_, -, rfl⟩
  · exact h.register hs hr
  all_goals exact h

theorem wellFormed_steps {b : Build} {ss : List Step} (h : b.registry.WellFormed)
    (hs : ∀ s ∈ ss, s.WellFormed) : (b.steps ss).1.registry.WellFormed := by
  induction ss generalizing b with
  | nil => exact h
  | cons s ss ih =>
    obtain ⟨hs, hss⟩ := List.forall_mem_cons.mp hs
    rw [steps]
    split
    · next b' hb => exact ih (wellFormed_of_step h hs hb) hss
    · exact h

/-- **The schemas noted in a build that ended well** — those from before and those of its steps. -/
theorem mem_emitted_of_steps {b b' : Build} {ss : List Step} (h : b.steps ss = (b', .ok ()))
    {schema : Schema} :
    schema ∈ b'.emitted ↔ schema ∈ b.emitted ∨ Step.emit schema ∈ ss := by
  induction ss generalizing b with
  | nil =>
    obtain ⟨rfl, -⟩ := Prod.mk.inj h
    simp
  | cons s ss ih =>
    rw [steps] at h
    split at h
    · next b₁ hb =>
      rw [ih h, List.mem_cons]
      rcases step_eq_ok hb with ⟨d, r, rfl, -, rfl⟩ | ⟨_, rfl, rfl⟩ |
        ⟨_, _, rfl, ⟨-, rfl⟩ | ⟨-, rfl⟩⟩ | ⟨_, rfl, rfl⟩ <;> simp [or_assoc]
    · cases h

/-- Rendering some paths stores well-formed schemas only. -/
theorem wellFormed_carryOut {b : Build} (h : b.registry.WellFormed) (default : String)
    (ps : List Path) : (b.carryOut (renderPaths default ps)).1.registry.WellFormed := by
  rw [carryOut_fst]
  exact wellFormed_steps h (ensures_renderPaths Step.covers_wellFormed default ps).step

end Build

theorem Registry.WellFormed.assemble {r : Registry} (h : r.WellFormed) (api : Api)
    (options : AssemblyOptions) : (assemble api options r).registry.WellFormed := by
  have hrender := Build.wellFormed_carryOut (b := Build.ofApi api r) h
    options.defaultResponseDescription api.paths
  rw [OpenApi.assemble]
  split <;> next b _ hb =>
    rw [hb] at hrender
    first
      | exact hrender
      | simpa using hrender.freeze

/-! ## Reachable registries -/

/-- **What can be done to a registry** — it begins empty, descriptors are synthesized and documents
assembled on it, well or in vain, and it may be frozen at any time. -/
inductive Registry.Reachable : Registry → Prop
  | empty : Reachable {}
  | synthesize {r : Registry} (d : Descriptor) : Reachable r → Reachable (r.synthesize d).1
  | freeze {r : Registry} : Reachable r → Reachable r.freeze
  | assemble {r : Registry} (api : Api) (options : AssemblyOptions) :
    Reachable r → Reachable (assemble api options r).registry

theorem Registry.Reachable.wellFormed {r : Registry} (h : r.Reachable) : r.WellFormed := by
  induction h with
  | empty => exact fun e he => nomatch he
  | synthesize d _ ih => exact ih.synthesize d
  | freeze _ ih => exact ih.freeze
  | assemble api options _ ih => exact ih.assemble api options

end OpenApi
