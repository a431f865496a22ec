import OpenApi.Proofs.Registry.Growth
import OpenApi.Proofs.Tables

/-!
# Proofs/Assembly/Confluence — steps carried out in another order

    steps ╌permuted╌▸ steps'
      │                 │
      ▼                 ▼
    build  ╌╌Same╌╌▸  build'

A build is four collections that do not look at each other: stored schemas, security schemes, noted
schemas and noted names.  The steps carry out iff the schemas can join the first and the schemes the
second (`steps_eq_ok_iff`), and for that their order does not matter (`steps_perm`).
-/

namespace OpenApi

/-! ## What the steps bring along -/

namespace Step

/-- The schema to store, with its name. -/
def definition? : Step → Option (String × Schema)
  | .define d => some (d.name, d.schema)
  | _ => none

/-- The security scheme to define, with its name. -/
def declaration? : Step → Option (String × SecurityScheme)
  | .declare name scheme => some (name, scheme)
  | _ => none

/-- The schema to note. -/
def emission? : Step → Option Schema
  | .emit schema => some schema
  | _ => none

/-- The name of a security scheme to note. -/
def reference? : Step → Option String
  | .refer name => some name
  | _ => none

theorem declaration?_eq_some_iff {s : Step} {name : String} {scheme : SecurityScheme} :
    s.declaration? = some (name, scheme) ↔ s = .declare name scheme := by
  cases s <;> simp [declaration?]

theorem reference?_eq_some_iff {s : Step} {name : String} :
    s.reference? = some name ↔ s = .refer name := by
  cases s <;> simp [reference?]

end Step

namespace Table

variable {α κ : Type} [DecidableEq κ] {admits : κ × α → Prop} {t t' : List (κ × α)}

@[simp] theorem joinAll_nil : JoinAll admits t [] t' ↔ t' = t :=
  ⟨fun h => by cases h; rfl, fun h => h ▸ .nil⟩

theorem joinAll_cons {p : κ × α} {ps : List (κ × α)} :
    JoinAll admits t (p :: ps) t' ↔ ∃ t₁, Joins admits t p t₁ ∧ JoinAll admits t₁ ps t' := by
  constructor
  · rintro (_ | ⟨hp, hps⟩)
    exact ⟨_, hp, hps⟩
  · rintro ⟨t₁, hp, hps⟩
    exact .cons hp hps

end Table

/-- A registration is a pair that joins the entries. -/
theorem Registry.register_eq_ok_iff_joins {r s : Registry} {name : String} {schema : Schema} :
    r.register name schema = .ok s ↔
      Table.Joins (fun p => r.Admits p.1 p.2) r.entries (name, schema) s.entries ∧
        s.frozen = r.frozen := by
  rw [register_eq_ok_iff]
  constructor
  · rintro (⟨hr, rfl⟩ | ⟨hr, ha, rfl⟩)
    · exact ⟨.known hr, rfl⟩
    · exact ⟨.new hr ha, rfl⟩
  · rintro ⟨hj, hf⟩
    obtain ⟨entries, frozen⟩ := s
    obtain rfl : frozen = r.frozen := hf
    generalize he : entries = es at hj
    cases hj with
    | known hr => exact Or.inl ⟨hr, by subst he; rfl⟩
    | new hr ha => exact Or.inr ⟨hr, ha, by subst he; rfl⟩

/-- What may come in depends on the registry only through its being frozen. -/
theorem Registry.admits_congr {r s : Registry} (h : r.frozen = s.frozen) :
    (fun p : String × Schema => r.Admits p.1 p.2) = fun p => s.Admits p.1 p.2 := by
  funext p
  rw [Admits, Admits, h]

namespace Build

/-- **What it takes to carry out some steps** — that the schemas can join those that are stored, and
the security schemes those that are defined. -/
structure CarriesOut (b : Build) (ss : List Step) (b' : Build) : Prop where
  entries : Table.JoinAll (fun p => b.registry.Admits p.1 p.2) b.registry.entries
    (ss.filterMap Step.definition?) b'.registry.entries
  frozen : b'.registry.frozen = b.registry.frozen
  schemes : Table.JoinAll (fun _ => True) b.schemes (ss.filterMap Step.declaration?) b'.schemes
  emitted : b'.emitted = b.emitted ++ ss.filterMap Step.emission?
  referred : b'.referred = b.referred ++ ss.filterMap Step.reference?

theorem steps_cons_eq_ok {b b' : Build} {s : Step} {ss : List Step} :
    b.steps (s :: ss) = (b', .ok ()) ↔ ∃ b₁, b.step s = .ok b₁ ∧ b₁.steps ss = (b', .ok ()) := by
  rw [steps]
  split
  · next b₁ hb => simp [hb]
  · next e hb => simp [hb]

theorem CarriesOut.of_steps {b b' : Build} {ss : List Step} (h : b.steps ss = (b', .ok ())) :
    b.CarriesOut ss b' := by
  induction ss generalizing b with
  | nil =>
    obtain ⟨rfl, -⟩ := Prod.mk.inj h
    exact ⟨.nil, rfl, .nil, (List.append_nil _).symm, (List.append_nil _).symm⟩
  | cons s ss ih =>
    obtain ⟨b₁, hb, hss⟩ := steps_cons_eq_ok.mp h
    have hrest := ih hss
    rcases step_eq_ok hb with ⟨d, r, rfl, hr, rfl⟩ | ⟨schema, rfl, rfl⟩ | ⟨name, scheme, rfl, hd⟩ |
      ⟨name, rfl, rfl⟩
    · obtain ⟨hj, hf⟩ := Registry.register_eq_ok_iff_joins.mp hr
      have hentries := hrest.entries
      rw [Registry.admits_congr hf] at hentries
      exact ⟨.cons hj hentries, hrest.frozen.trans hf, hrest.schemes, hrest.emitted,
        hrest.referred⟩
    · exact ⟨hrest.entries, hrest.frozen, hrest.schemes, by simp [hrest.emitted, Step.emission?],
        hrest.referred⟩
    · rcases hd with ⟨hn, rfl⟩ | ⟨hn, rfl⟩
      · exact ⟨hrest.entries, hrest.frozen, .cons (.known hn) hrest.schemes, hrest.emitted,
          hrest.referred⟩
      · exact ⟨hrest.entries, hrest.frozen, .cons (.new hn trivial) hrest.schemes, hrest.emitted,
          hrest.referred⟩
    · exact ⟨hrest.entries, hrest.frozen, hrest.schemes, hrest.emitted,
        by simp [hrest.referred, Step.reference?]⟩

theorem CarriesOut.steps {b b' : Build} {ss : List Step} (h : b.CarriesOut ss b') :
    b.steps ss = (b', .ok ()) := by
  induction ss generalizing b with
  | nil =>
    obtain ⟨⟨entries, frozen⟩, schemes, emitted, referred⟩ := b'
    have he : entries = b.registry.entries := Table.joinAll_nil.mp h.entries
    have hf : frozen = b.registry.frozen := h.frozen
    have hs : schemes = b.schemes := Table.joinAll_nil.mp h.schemes
    have hm : emitted = b.emitted := h.emitted.trans (List.append_nil _)
    have hr : referred = b.referred := h.referred.trans (List.append_nil _)
    subst he hf hs hm hr
    rfl
  | cons s ss ih =>
    refine steps_cons_eq_ok.mpr ?_
    cases s with
    | define d =>
      obtain ⟨t, hj, hentries⟩ := Table.joinAll_cons.mp h.entries
      have hr : b.registry.register d.name d.schema = .ok ⟨t, b.registry.frozen⟩ :=
        Registry.register_eq_ok_iff_joins.mpr ⟨hj, rfl⟩
      refine ⟨{ b with registry := ⟨t, b.registry.frozen⟩ }, by rw [step, hr], ih ?_⟩
      exact ⟨hentries, h.frozen, h.schemes, h.emitted, h.referred⟩
    | emit schema =>
      refine ⟨{ b with emitted := b.emitted ++ [schema] }, rfl, ih ?_⟩
      exact ⟨h.entries, h.frozen, h.schemes, by simpa [Step.emission?] using h.emitted,
        h.referred⟩
    | declare name scheme =>
      obtain ⟨t, hj, hschemes⟩ := Table.joinAll_cons.mp h.schemes
      refine ⟨{ b with schemes := t }, ?_, ih ⟨h.entries, h.frozen, hschemes, h.emitted,
        h.referred⟩⟩
      rw [step]
      cases hj with
      | known hn => simp [hn]
      | new hn _ => simp [hn]
    | refer name =>
      refine ⟨{ b with referred := b.referred ++ [name] }, rfl, ih ?_⟩
      exact ⟨h.entries, h.frozen, h.schemes, h.emitted,
        by simpa [Step.reference?] using h.referred⟩

/-- **Two builds hold the same** — in whatever order it came in. -/
structure Same (b c : Build) : Prop where
  frozen : b.registry.frozen = c.registry.frozen
  entries : Table.Same b.registry.entries c.registry.entries
  schemes : Table.Same b.schemes c.schemes
  emitted : b.emitted.Perm c.emitted
  referred : b.referred.Perm c.referred

theorem Same.symm {b c : Build} (h : b.Same c) : c.Same b :=
  ⟨h.frozen.symm, h.entries.symm, h.schemes.symm, h.emitted.symm, h.referred.symm⟩

/-- **Steps may be carried out in any order** — also in a build that holds the same. -/
theorem steps_perm {b b' c : Build} {ss ts : List Step} (h : b.steps ss = (b', .ok ()))
    (hp : ss.Perm ts) (hbc : b.Same c) : ∃ c', c.steps ts = (c', .ok ()) ∧ b'.Same c' := by
  have hcarry := CarriesOut.of_steps h
  obtain ⟨es, he, hes⟩ := hcarry.entries.perm (hp.filterMap _) hbc.entries
  obtain ⟨schemes, hs, hss⟩ := hcarry.schemes.perm (hp.filterMap _) hbc.schemes
  rw [Registry.admits_congr hbc.frozen] at he
  refine ⟨⟨⟨es, c.registry.frozen⟩, schemes, c.emitted ++ ts.filterMap Step.emission?,
    c.referred ++ ts.filterMap Step.reference?⟩, CarriesOut.steps ⟨he, rfl, hs, rfl, rfl⟩, ?_⟩
  refine ⟨hcarry.frozen.trans hbc.frozen, hes, hss, ?_, ?_⟩
  · rw [hcarry.emitted]
    exact hbc.emitted.append (hp.filterMap _)
  · rw [hcarry.referred]
    exact hbc.referred.append (hp.filterMap _)

end Build

end OpenApi
