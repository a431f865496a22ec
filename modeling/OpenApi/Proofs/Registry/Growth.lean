import OpenApi.Assembly.Basic

/-!
# Proofs/Registry/Growth — a registry only grows

    register, freeze, synthesize ──▸ `Grows` ◂── the steps of a build, assemble

An entry that came in stays as it is and where it is, and a frozen registry takes no more
(`Grows`).  Everything that works on a registry is traced back to one inversion of `register`
(`register_eq_ok_iff`).
-/

namespace OpenApi

namespace Registry

/-- **What a registry may turn into** — new entries stand behind the known ones, and a frozen
registry gets none. -/
structure Grows (r s : Registry) : Prop where
  entries : r.entries <+: s.entries
  frozen : r.frozen = true → s.frozen = true
  closed : r.frozen = true → s.entries = r.entries

theorem Grows.refl (r : Registry) : r.Grows r := ⟨List.prefix_refl _, id, fun _ => rfl⟩

theorem Grows.trans {r s t : Registry} (h : r.Grows s) (h' : s.Grows t) : r.Grows t :=
  ⟨h.entries.trans h'.entries, fun hr => h'.frozen (h.frozen hr),
    fun hr => (h'.closed (h.frozen hr)).trans (h.closed hr)⟩

/-- **A stored schema stays** — a name is looked up from the front, so later entries do not
shadow it. -/
theorem Grows.get? {r s : Registry} (h : r.Grows s) {name : String} {schema : Schema}
    (hr : r.get? name = some schema) : s.get? name = some schema := by
  obtain ⟨new, hnew⟩ := h.entries
  rw [Registry.get?] at hr
  rw [Registry.get?, ← hnew, Table.get?_append, hr, Option.some_or]

/-! ## One registration -/

/-- A registration may bring in a new name: the registry takes new names and the schema is no
reference to the name itself. -/
def Admits (r : Registry) (name : String) (schema : Schema) : Prop :=
  r.frozen = false ∧ ¬ (schema.isRef = true ∧ schema.refName = some name)

/-- **The two ways to be stored** — as the schema that is there already, or as a new entry. -/
theorem register_eq_ok_iff {r s : Registry} {name : String} {schema : Schema} :
    r.register name schema = .ok s ↔
      (r.get? name = some schema ∧ s = r) ∨
        (r.get? name = none ∧ r.Admits name schema ∧
          s = { r with entries := r.entries ++ [(name, schema)] }) := by
  rw [register, Admits]
  cases hr : r.get? name with
  | some existing =>
    by_cases he : existing = schema
    · simp [he, @eq_comm _ s]
    · simp [he]
  | none =>
    by_cases hf : r.frozen = true
    · simp [hf]
    · by_cases hs : schema.isRef = true ∧ schema.refName = some name
      · simp [hf, hs.1, hs.2]
      · have hs' : ¬ (schema.isRef && decide (schema.refName = some name)) = true := by
          simpa using hs
        simp only [hf, hs', Bool.false_eq_true, if_false]
        simp [hs, @eq_comm _ s]

/-- What has been stored under a name is found there. -/
theorem get?_of_register {r s : Registry} {name : String} {schema : Schema}
    (h : r.register name schema = .ok s) : s.get? name = some schema := by
  rcases register_eq_ok_iff.mp h with ⟨hr, rfl⟩ | ⟨hr, -, rfl⟩
  · exact hr
  · rw [Registry.get?] at hr ⊢
    rw [Table.get?_append, hr]
    simp [Table.get?]

/-- What is found after a registration was there before, or has just been stored. -/
theorem get?_or_eq_of_register {r s : Registry} {name n : String} {schema t : Schema}
    (h : r.register name schema = .ok s) (ht : s.get? n = some t) :
    r.get? n = some t ∨ n = name := by
  rcases register_eq_ok_iff.mp h with ⟨-, rfl⟩ | ⟨-, -, rfl⟩
  · exact Or.inl ht
  · rw [Registry.get?, Table.get?_append, Option.or_eq_some_iff] at ht
    rcases ht with ht | ⟨-, ht⟩
    · exact Or.inl ht
    · rw [Table.get?] at ht
      split at ht
      · next hn => exact Or.inr hn.symm
      · cases ht

theorem Grows.register {r s : Registry} {name : String} {schema : Schema}
    (h : r.register name schema = .ok s) : r.Grows s := by
  rcases register_eq_ok_iff.mp h with ⟨-, rfl⟩ | ⟨-, ⟨hf, -⟩, rfl⟩
  · exact Grows.refl _
  · exact ⟨List.prefix_append _ _, fun hr => hr, fun hr => by simp [hf] at hr⟩

/-! ## Runs of registrations -/

theorem Grows.freeze (r : Registry) : r.Grows r.freeze :=
  ⟨List.prefix_refl _, fun _ => rfl, fun _ => rfl⟩

@[simp] theorem entries_freeze (r : Registry) : r.freeze.entries = r.entries := rfl

theorem Grows.registerAll (r : Registry) (ds : List Definition) :
    r.Grows (r.registerAll ds).1 := by
  induction ds generalizing r with
  | nil => exact Grows.refl r
  | cons d ds ih =>
    rw [Registry.registerAll]
    split
    · next s hs => exact (Grows.register hs).trans (ih s)
    · exact Grows.refl r

theorem carryOut_fst {α : Type} (r : Registry) (l : Lowering α) :
    (r.carryOut l).1 = (r.registerAll l.steps).1 := by
  rw [carryOut]
  split <;> next h => simp [h]

theorem Grows.synthesize (r : Registry) (d : Descriptor) : r.Grows (r.synthesize d).1 := by
  rw [Registry.synthesize, carryOut_fst]
  exact Grows.registerAll r _

end Registry

/-! ## The steps of a build -/

namespace Build

/-- The same build on another registry. -/
abbrev on (b : Build) (r : Registry) : Build := { b with registry := r }

/-- **What a step can do** — store a schema, note one, define a security scheme that is new or the
same as before, or note one that is referred to. -/
theorem step_eq_ok {b b' : Build} {s : Step} (h : b.step s = .ok b') :
    (∃ d r, s = .define d ∧ b.registry.register d.name d.schema = .ok r ∧
        b' = { b with registry := r }) ∨
      (∃ schema, s = .emit schema ∧ b' = { b with emitted := b.emitted ++ [schema] }) ∨
      (∃ name scheme, s = .declare name scheme ∧
        ((Table.get? name b.schemes = some scheme ∧ b' = b) ∨
          (Table.get? name b.schemes = none ∧
            b' = { b with schemes := b.schemes ++ [(name, scheme)] }))) ∨
      ∃ name, s = .refer name ∧ b' = { b with referred := b.referred ++ [name] } := by
  cases s with
  | define d =>
    rw [step] at h
    split at h
    · next r hr => exact Or.inl ⟨d, r, rfl, hr, (Except.ok.inj h).symm⟩
    · cases h
  | emit schema => exact Or.inr (Or.inl ⟨schema, rfl, (Except.ok.inj h).symm⟩)
  | declare name scheme =>
    refine Or.inr (Or.inr (Or.inl ⟨name, scheme, rfl, ?_⟩))
    rw [step] at h
    split at h
    · next hn => exact Or.inr ⟨hn, (Except.ok.inj h).symm⟩
    · next existing hn =>
      split at h
      · next he => exact Or.inl ⟨he ▸ hn, (Except.ok.inj h).symm⟩
      · cases h
  | refer name => exact Or.inr (Or.inr (Or.inr ⟨name, rfl, (Except.ok.inj h).symm⟩))

theorem grows_of_step {b b' : Build} {s : Step} (h : b.step s = .ok b') :
    b.registry.Grows b'.registry := by
  rcases step_eq_ok h with ⟨d, r, -, hr, rfl⟩ | ⟨_, -, rfl⟩ | ⟨_, _, -, ⟨-, rfl⟩ | ⟨-, rfl⟩⟩ |
    ⟨_, -, rfl⟩
  · exact Registry.Grows.register hr
  all_goals exact Registry.Grows.refl _

theorem grows_steps (b : Build) (ss : List Step) : b.registry.Grows (b.steps ss).1.registry := by
  induction ss generalizing b with
  | nil => exact Registry.Grows.refl _
  | cons s ss ih =>
    rw [steps]
    split
    · next b' hb => exact (grows_of_step hb).trans (ih b')
    · exact Registry.Grows.refl _

theorem carryOut_fst {α : Type} (b : Build) (r : Rendering α) :
    (b.carryOut r).1 = (b.steps r.steps).1 := by
  rw [carryOut]
  split <;> next h => simp [h]

/-- A rendering is carried out if all its steps are and it ends well itself. -/
theorem carryOut_eq_ok_iff {α : Type} {b b' : Build} {r : Rendering α} {a : α} :
    b.carryOut r = (b', .ok a) ↔ b.steps r.steps = (b', .ok ()) ∧ r.outcome = .ok a := by
  rw [carryOut]
  split
  · next hs => simp [hs]
  · next hs => simp [hs]

/-- Whatever a build ends in, the registry it leaves is frozen at that point. -/
@[simp] theorem registry_finish (b : Build) (api : Api) (options : AssemblyOptions)
    (paths : Json) : (b.finish api options paths).registry = b.registry.freeze := by
  rw [finish]
  dsimp only
  split
  · rfl
  · split
    · rfl
    · split <;> rfl

end Build

/-- **An assembly only adds to its registry**, whatever it ends in. -/
theorem Registry.Grows.assemble (api : Api) (options : AssemblyOptions) (r : Registry) :
    r.Grows (assemble api options r).registry := by
  have hsteps : r.Grows ((Build.ofApi api r).carryOut
      (renderPaths options.defaultResponseDescription api.paths)).1.registry := by
    rw [Build.carryOut_fst]
    exact Build.grows_steps (Build.ofApi api r) _
  rw [OpenApi.assemble]
  split <;> next b _ hb =>
    rw [hb] at hsteps
    first
      | exact hsteps
      | exact hsteps.trans (by simpa using Registry.Grows.freeze b.registry)

end OpenApi
