import Mathlib.Logic.Relation
import OpenApi.Registry

/-!
# Proofs/Schema/Targets — references opened one by one

    ref n                   ──▸  the schema stored under n
    allOf [ref n], with m   ──▸  the schema stored under n, with m on top

A use site that has something to say about a reference says it on an `allOf` around it, so a schema
points at a stored one in two ways (`target?`).  To open it is to put what the use site says on top
of what is stored (`Registry.Opens`).  Metadata stacks up (`withMetadata_withMetadata`), so it may be
put on a schema before it is opened or after (`Unfolds.withMetadata`).
-/

open Relation (ReflTransGen)

namespace OpenApi

/-! ## Metadata on metadata -/

namespace Metadata

theorem isEmpty_iff {m : Metadata} : m.isEmpty = true ↔ m = {} := by
  obtain ⟨description, format, sample, nullable⟩ := m
  simp [isEmpty, and_assoc]

@[simp] theorem over_empty (m : Metadata) : m.over {} = m := by
  obtain ⟨description, format, sample, nullable⟩ := m
  simp [Metadata.over]

@[simp] theorem empty_over (m : Metadata) : Metadata.over {} m = m := by
  obtain ⟨description, format, sample, nullable⟩ := m
  simp [Metadata.over]

theorem over_assoc (a b c : Metadata) : a.over (b.over c) = (a.over b).over c := by
  simp only [Metadata.over, Option.orElse_eq_orElse, Option.orElse_eq_or, Option.or_assoc, Bool.or_assoc]

/-- What is said below is not unsaid. -/
theorem over_ne_empty (m : Metadata) {lower : Metadata} (h : lower ≠ {}) : m.over lower ≠ {} := by
  rw [Ne, ← isEmpty_iff] at h ⊢
  simp only [isEmpty, Metadata.over, Bool.and_eq_true, Option.isNone_iff_eq_none, Bool.not_eq_true',
    Option.orElse_eq_orElse, Option.orElse_eq_or, Option.or_eq_none_iff, Bool.or_eq_false_iff] at h ⊢
  exact fun ⟨⟨⟨hd, hf⟩, hs⟩, hn⟩ => h ⟨⟨⟨hd.2, hf.2⟩, hs.2⟩, hn.1⟩

end Metadata

namespace Schema

variable {s : Schema} {m : Metadata}

@[simp] theorem withMetadata_empty (s : Schema) : s.withMetadata {} = s := rfl

theorem withMetadata_of_ne_ref (h : s.isRef = false) (m : Metadata) :
    s.withMetadata m = { s with metadata := m.over s.metadata } := by
  rw [withMetadata, h]
  split
  · next hm =>
    obtain rfl := Metadata.isEmpty_iff.mp hm
    cases s
    rw [Metadata.empty_over]
  · rfl

theorem withMetadata_of_ref (h : s.isRef = true) (hm : m ≠ {}) :
    s.withMetadata m = { kind := .composite .allOf, members := [s], metadata := m } := by
  rw [withMetadata, if_neg (mt Metadata.isEmpty_iff.mp hm), if_pos h]

theorem ref_inj {name name' : String} (h : ref name = ref name') : name = name' :=
  Option.some.inj (congrArg refName h)

/-- A schema is a bare reference only if nothing was said on top. -/
theorem withMetadata_eq_ref {name : String} (h : s.withMetadata m = ref name) :
    m = {} ∧ s = ref name := by
  cases href : s.isRef with
  | true =>
    by_cases hm : m = {}
    · subst hm
      exact ⟨rfl, h⟩
    · rw [withMetadata_of_ref href hm] at h
      exact nomatch congrArg kind h
  | false =>
    have hkind : s.isRef = true := by
      rw [withMetadata_of_ne_ref href] at h
      exact congrArg isRef h
    exact nomatch href.symm.trans hkind

/-- **Metadata stacks up** — the use site further out has the say. -/
theorem withMetadata_withMetadata (s : Schema) (m upper : Metadata) :
    (s.withMetadata m).withMetadata upper = s.withMetadata (upper.over m) := by
  cases href : s.isRef with
  | true =>
    by_cases hm : m = {}
    · rw [hm, withMetadata_empty, Metadata.over_empty]
    · rw [withMetadata_of_ref href hm, withMetadata_of_ref href (upper.over_ne_empty hm),
        withMetadata_of_ne_ref rfl]
  | false =>
    have hkind : ({ s with metadata := m.over s.metadata } : Schema).isRef = false := href
    rw [withMetadata_of_ne_ref href, withMetadata_of_ne_ref hkind, withMetadata_of_ne_ref href,
      Metadata.over_assoc]

/-! ## What a schema points at -/

/-- **The name that a schema points at**, with what it says on top — a reference says nothing, an
`allOf` around one says what its metadata does. -/
def target? (s : Schema) : Option (String × Metadata) :=
  if s.isRef then s.refName.map (·, {})
  else if s.kind = .composite .allOf then
    match s.members with
    | [member] => if member.isRef then member.refName.map (·, s.metadata) else none
    | _ => none
  else none

theorem target?_ref (name : String) : (ref name).target? = some (name, {}) := rfl

/-- **Metadata does not change what a schema points at.** -/
theorem target?_withMetadata (s : Schema) (m : Metadata) :
    (s.withMetadata m).target? = s.target?.map fun t => (t.1, m.over t.2) := by
  cases href : s.isRef with
  | true =>
    by_cases hm : m = {}
    · simp [hm, Option.map_id']
    · rw [withMetadata_of_ref href hm, target?, target?, if_pos href]
      simp [isRef, of_decide_eq_true href, Option.map_map, Function.comp_def]
  | false =>
    have hkind : ({ s with metadata := m.over s.metadata } : Schema).isRef = false := href
    simp only [withMetadata_of_ne_ref href, target?, hkind, href, Bool.false_eq_true, if_false]
    split
    · split
      · split
        · simp [Option.map_map, Function.comp_def]
        · rfl
      · rfl
    · rfl

end Schema

/-! ## Opening references -/

namespace Registry

variable {r : Registry} {s t : Schema}

/-- **A schema is opened** — what it points at, with what it says on top. -/
def Opens (r : Registry) (s t : Schema) : Prop :=
  ∃ name m u, s.target? = some (name, m) ∧ r.get? name = some u ∧ t = u.withMetadata m

/-- **A schema is opened until it points nowhere.** -/
def Unfolds (r : Registry) (s t : Schema) : Prop := ReflTransGen r.Opens s t ∧ t.target? = none

theorem Opens.withMetadata (h : r.Opens s t) (m : Metadata) :
    r.Opens (s.withMetadata m) (t.withMetadata m) := by
  obtain ⟨name, m₀, u, hs, hu, rfl⟩ := h
  exact ⟨name, m.over m₀, u, by rw [Schema.target?_withMetadata, hs]; rfl, hu,
    Schema.withMetadata_withMetadata u m₀ m⟩

theorem rightUnique_opens (r : Registry) : Relator.RightUnique r.Opens := by
  rintro s t t' ⟨name, m, u, hs, hu, rfl⟩ ⟨name', m', u', hs', hu', rfl⟩
  obtain ⟨rfl, rfl⟩ := Prod.mk.inj (Option.some.inj (hs.symm.trans hs'))
  rw [Option.some.inj (hu.symm.trans hu')]

theorem not_opens_of_target?_eq_none (h : s.target? = none) : ¬ r.Opens s t := by
  rintro ⟨name, m, u, hs, -, -⟩
  rw [h] at hs
  cases hs

namespace Unfolds

theorem refl (h : s.target? = none) : r.Unfolds s s := ⟨.refl, h⟩

theorem head {u : Schema} (h : r.Opens s t) (ht : r.Unfolds t u) : r.Unfolds s u :=
  ⟨.head h ht.1, ht.2⟩

/-- **Metadata may be put on a schema before it is opened or after.** -/
theorem withMetadata (h : r.Unfolds s t) (m : Metadata) :
    r.Unfolds (s.withMetadata m) (t.withMetadata m) := by
  refine ⟨h.1.lift _ fun _ _ hopens => hopens.withMetadata m, ?_⟩
  rw [Schema.target?_withMetadata, h.2, Option.map_none]

/-- **A schema unfolds to one schema at most.** -/
theorem unique {t' : Schema} (h : r.Unfolds s t) (h' : r.Unfolds s t') : t = t' := by
  rcases ReflTransGen.total_of_right_unique r.rightUnique_opens h.1 h'.1 with htt | htt
  · rcases ReflTransGen.cases_head htt with rfl | ⟨_, hopens, -⟩
    · rfl
    · exact absurd hopens (not_opens_of_target?_eq_none h.2)
  · rcases ReflTransGen.cases_head htt with rfl | ⟨_, hopens, -⟩
    · rfl
    · exact absurd hopens (not_opens_of_target?_eq_none h'.2)

end Unfolds

end Registry

end OpenApi
