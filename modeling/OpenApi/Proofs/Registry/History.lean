import Mathlib.Logic.Relation
import OpenApi.Proofs.Assembly.Document
import OpenApi.Proofs.Tables

/-!
# Proofs/Registry/History — what a registry goes through

    {} ──call──▸ r₁ ──call──▸ r₂ ──call──▸ …          each call well or in vain

A call on a registry may store any number of schemas and fail in the middle of it, and it may
freeze the registry.  Whatever it does is a chain of registrations that were not refused
(`Gathers`), with at most one freeze behind them, so an invariant of one registration is one of
every history (`history_append_only`).  An assembly freezes the registry exactly if all paths have
been rendered (`frozen_assemble`).
-/

open Relation (ReflTransGen)

namespace OpenApi

namespace Registry

variable {r s : Registry}

/-! ## Registrations -/

/-- A registration that is not refused. -/
def Stores (r s : Registry) : Prop := ∃ name schema, r.register name schema = .ok s

/-- **One registration after another**, none of them refused. -/
abbrev Gathers : Registry → Registry → Prop := ReflTransGen Stores

theorem Gathers.registerAll (r : Registry) (ds : List Definition) :
    r.Gathers (r.registerAll ds).1 := by
  induction ds generalizing r with
  | nil => exact .refl
  | cons d ds ih =>
    rw [Registry.registerAll]
    split
    · next s hs => exact (ih s).head ⟨d.name, d.schema, hs⟩
    · exact .refl

theorem Gathers.synthesize (r : Registry) (d : Descriptor) : r.Gathers (r.synthesize d).1 := by
  rw [Registry.synthesize, carryOut_fst]
  exact Gathers.registerAll r _

theorem Gathers.grows (h : r.Gathers s) : r.Grows s := by
  induction h with
  | refl => exact Grows.refl r
  | tail _ hs ih =>
    obtain ⟨name, schema, hs⟩ := hs
    exact ih.trans (Grows.register hs)

/-- A registration does not freeze. -/
theorem Gathers.frozen_eq (h : r.Gathers s) : s.frozen = r.frozen := by
  induction h with
  | refl => rfl
  | tail _ hs ih =>
    obtain ⟨name, schema, hs⟩ := hs
    rcases register_eq_ok_iff.mp hs with ⟨-, rfl⟩ | ⟨-, -, rfl⟩ <;> exact ih

/-- A name is stored once: what is registered again is there already. -/
theorem Gathers.nodup_names (h : r.Gathers s) (hr : r.names.Nodup) : s.names.Nodup := by
  induction h with
  | refl => exact hr
  | tail _ hs ih =>
    obtain ⟨name, schema, hs⟩ := hs
    rcases register_eq_ok_iff.mp hs with ⟨-, rfl⟩ | ⟨hnew, -, rfl⟩
    · exact ih
    · rw [names, List.map_append]
      exact Table.nodup_push ih (Table.get?_eq_none_iff.mp hnew)

/-- **The sorted entries are the entries**, in strictly ascending order of their names. -/
theorem all_of_nodup (h : r.names.Nodup) :
    r.all.Perm r.entries ∧ (r.all.map (·.1)).Pairwise (· < ·) :=
  ⟨sortOn_perm _ _, ascending_sortOn h⟩

end Registry

namespace Build

theorem gathers_of_step {b b' : Build} {s : Step} (h : b.step s = .ok b') :
    b.registry.Gathers b'.registry := by
  rcases step_eq_ok h with ⟨d, r, -, hr, rfl⟩ | ⟨_, -, rfl⟩ | ⟨_, _, -, ⟨-, rfl⟩ | ⟨-, rfl⟩⟩ |
    ⟨_, -, rfl⟩
  · exact .single ⟨d.name, d.schema, hr⟩
  all_goals exact .refl

theorem gathers_steps (b : Build) (ss : List Step) :
    b.registry.Gathers (b.steps ss).1.registry := by
  induction ss generalizing b with
  | nil => exact .refl
  | cons s ss ih =>
    rw [steps]
    split
    · next b' hb => exact (gathers_of_step hb).trans (ih b')
    · exact .refl

end Build

/-! ## Assemblies -/

section Assembly

variable (api : Api) (options : AssemblyOptions) (r : Registry)

/-- **All paths of an API can be rendered** on a registry. -/
def Api.Renders : Prop :=
  ∃ b paths, (Build.ofApi api r).carryOut
    (renderPaths options.defaultResponseDescription api.paths) = (b, .ok paths)

/-- **What an assembly does to its registry** — registrations, and a freeze behind them if all paths
have been rendered. -/
theorem gathers_assemble :
    ∃ s, r.Gathers s ∧
      ((api.Renders options r ∧ (assemble api options r).registry = s.freeze) ∨
        (¬ api.Renders options r ∧ (assemble api options r).registry = s)) := by
  have hsteps := Build.gathers_steps (Build.ofApi api r)
    (renderPaths options.defaultResponseDescription api.paths).steps
  rw [← Build.carryOut_fst] at hsteps
  cases h : (Build.ofApi api r).carryOut
      (renderPaths options.defaultResponseDescription api.paths) with
  | mk b o =>
    rw [h] at hsteps
    refine ⟨b.registry, hsteps, ?_⟩
    cases o with
    | ok paths => exact Or.inl ⟨⟨b, paths, h⟩, (assemble_of_ok h).2⟩
    | error e =>
      refine Or.inr ⟨?_, (assemble_of_error h).2⟩
      rintro ⟨b', paths, h'⟩
      rw [h] at h'
      cases h'

/-- **An assembly freezes its registry once all paths are rendered**, and not before. -/
theorem frozen_assemble :
    (assemble api options r).registry.frozen = true ↔
      r.frozen = true ∨ api.Renders options r := by
  obtain ⟨s, hs, ⟨hrender, heq⟩ | ⟨hrender, heq⟩⟩ := gathers_assemble api options r
  · rw [heq]
    exact ⟨fun _ => Or.inr hrender, fun _ => rfl⟩
  · rw [heq, hs.frozen_eq, or_iff_left hrender]

end Assembly

/-! ## Histories -/

namespace Registry

/-- **A call on a registry.** -/
inductive Call where
  | register (name : String) (schema : Schema)
  | freeze
  | check (schemas : List Schema)
  | resolve (name : String)
  | synthesize (d : Descriptor)
  | assemble (api : Api) (options : AssemblyOptions)

/-- The registry that a call leaves behind, also if it fails. -/
def after (r : Registry) : Call → Registry
  | .register name schema => (r.register name schema).toOption.getD r
  | .freeze => r.freeze
  | .check _ | .resolve _ => r
  | .synthesize d => (r.synthesize d).1
  | .assemble api options => (OpenApi.assemble api options r).registry

/-- The registry that some calls leave behind, one after the other. -/
def afterAll (r : Registry) (calls : List Call) : Registry := calls.foldl after r

/-- **A history** — the registry that some calls leave behind, which was empty. -/
def history (calls : List Call) : Registry := afterAll {} calls

variable {r : Registry}

/-- **What a call can do** — registrations, and then perhaps a freeze. -/
theorem gathers_after (r : Registry) (call : Call) :
    ∃ s, r.Gathers s ∧ (r.after call = s ∨ r.after call = s.freeze) := by
  cases call with
  | register name schema =>
    cases h : r.register name schema with
    | ok s => exact ⟨s, .single ⟨name, schema, h⟩, Or.inl (by rw [after, h]; rfl)⟩
    | error e => exact ⟨r, .refl, Or.inl (by rw [after, h]; rfl)⟩
  | freeze => exact ⟨r, .refl, Or.inr rfl⟩
  | check schemas => exact ⟨r, .refl, Or.inl rfl⟩
  | resolve name => exact ⟨r, .refl, Or.inl rfl⟩
  | synthesize d => exact ⟨_, Gathers.synthesize r d, Or.inl rfl⟩
  | assemble api options =>
    obtain ⟨s, hs, ⟨-, h⟩ | ⟨-, h⟩⟩ := gathers_assemble api options r
    · exact ⟨s, hs, Or.inr h⟩
    · exact ⟨s, hs, Or.inl h⟩

theorem Grows.after (r : Registry) (call : Call) : r.Grows (r.after call) := by
  obtain ⟨s, hs, h | h⟩ := gathers_after r call
  · exact h ▸ hs.grows
  · exact h ▸ hs.grows.trans (Grows.freeze s)

theorem Grows.afterAll (r : Registry) (calls : List Call) : r.Grows (r.afterAll calls) := by
  induction calls generalizing r with
  | nil => exact Grows.refl r
  | cons call calls ih => exact (Grows.after r call).trans (ih _)

theorem nodup_names_afterAll (calls : List Call) (h : r.names.Nodup) :
    (r.afterAll calls).names.Nodup := by
  induction calls generalizing r with
  | nil => exact h
  | cons call calls ih =>
    refine ih ?_
    obtain ⟨s, hs, ha | ha⟩ := gathers_after r call
    · exact ha ▸ hs.nodup_names h
    · exact ha ▸ hs.nodup_names h

theorem history_append (calls more : List Call) :
    history (calls ++ more) = (history calls).afterAll more := List.foldl_append

/-- **A registry is append-only, and freezing is final** — whatever has been called on it, well or
in vain.  What is stored stays as it is and where it is; a frozen registry stays frozen and as it
is; the sorted entries are the entries; and an assembly leaves the registry frozen exactly if it was
or all paths have been rendered. -/
theorem history_append_only (calls more : List Call) :
    ((history calls).entries <+: (history (calls ++ more)).entries ∧
        ∀ name schema, (history calls).get? name = some schema →
          (history (calls ++ more)).get? name = some schema) ∧
      ((history calls).frozen = true → (history (calls ++ more)).frozen = true ∧
        (history (calls ++ more)).entries = (history calls).entries) ∧
      ((history calls).all.Perm (history calls).entries ∧
        ((history calls).all.map (·.1)).Pairwise (· < ·)) ∧
      ∀ api options, (history (calls ++ [.assemble api options])).frozen = true ↔
        (history calls).frozen = true ∨ api.Renders options (history calls) := by
  have hgrows := Grows.afterAll (history calls) more
  rw [← history_append] at hgrows
  refine ⟨⟨hgrows.entries, fun name schema => hgrows.get?⟩,
    fun hf => ⟨hgrows.frozen hf, hgrows.closed hf⟩,
    all_of_nodup (nodup_names_afterAll calls List.nodup_nil), fun api options => ?_⟩
  rw [history_append]
  exact frozen_assemble api options _

/-- A registry that has been assembled on takes no other name. -/
theorem history_append_only_assembled :
    let calls : List Call :=
      [.synthesize (.named "Id" (.primitive .string none) none none none false),
        .assemble { info := { title := "Pets", version := "1" } } {}]
    let more : List Call :=
      [.synthesize (.array (.named "Other" .any none none none false)), .register "Id" .any]
    (history calls).frozen = true ∧ (history (calls ++ more)).frozen = true ∧
      (history (calls ++ more)).entries = [("Id", Schema.primitive "string" none)] := by
  intro calls more
  have hfrozen : (history calls).frozen = true := rfl
  obtain ⟨-, hclosed, -⟩ := history_append_only calls more
  obtain ⟨hstays, hentries⟩ := hclosed hfrozen
  exact ⟨hfrozen, hstays, hentries.trans rfl⟩

end Registry

end OpenApi
