import OpenApi.Proofs.Lowering.Chains
import OpenApi.Proofs.Lowering.Definitions
import OpenApi.Proofs.Registry.History
import OpenApi.Proofs.Registry.References

/-!
# Proofs/Registry/Aliases — names that stand for names

    Id ──alias──▸ Key ──alias──▸ Text ──▸ { type: string }

A name under which nothing but a reference is stored stands for another one.  A registration refuses
a name that would stand for itself, and it sees no more than the one entry.  What keeps the aliases
from running in circles is the order in which a lowering defines: the type under a name comes before
the name.  So an alias leads to a name that came in earlier, unless its type does nothing but refer
to one that is yet to come (`ends_or_forwards`).  Two names of that kind can stand for each other
(`not_ends_loop`).
-/

open Relation (ReflTransGen)

namespace OpenApi

/-! ## Types that are references -/

namespace Descriptor

/-- **A descriptor that is nothing but a reference** — or an embedded name that has nothing to say
about one. -/
inductive IsReferenceTo (target : String) : Descriptor → Prop
  | reference : IsReferenceTo target (.reference target)
  | embedded {name : String} {underlying : Descriptor} (h : IsReferenceTo target underlying) :
    IsReferenceTo target (.named name underlying none none none true)

/-- **A descriptor passes a name on** — a type in it is stored under that name and is nothing but a
reference to the other one. -/
def Forwards (d : Descriptor) (name target : String) : Prop :=
  ∃ underlying, IsReferenceTo target underlying ∧
    (named name underlying none none none false).Within d

/-- **A lowering that ends in a bare reference** is that of one, or has stored the name that it
refers to. -/
theorem isReferenceTo_or_defined {d : Descriptor} {path : DescriptorPath} {defs : List Definition}
    {target : String} (h : (d.lower false path).Run defs (.ref target)) :
    IsReferenceTo target d ∨ ∃ x ∈ defs, x.name = target := by
  induction d using chainInduction generalizing path defs with
  | content d hcore =>
    cases d with
    | reference name =>
      obtain ⟨-, hs⟩ := run_reference.mp h
      obtain rfl := Schema.ref_inj hs
      exact Or.inl .reference
    | composite mode members =>
      obtain ⟨-, ss, -, hs⟩ := run_composite.mp h
      exact nomatch congrArg Schema.kind hs
    | optional inner => exact hcore.elim
    | named name underlying description format sample inline => exact hcore.elim
    | _ => exact nomatch target?_of_lower hcore ⟨nofun, nofun⟩ h.outcome
  | optional inner ih =>
    obtain ⟨i, -, hs⟩ := run_optional.mp h
    exact nomatch (Schema.withMetadata_eq_ref hs.symm).1
  | named name underlying description format sample inline ih =>
    obtain ⟨defs₁, i, t, hi, ht, ⟨hinline, rfl, hs⟩ | ⟨-, rfl, hs⟩⟩ := run_named.mp h
    · obtain ⟨hm, rfl⟩ := Schema.withMetadata_eq_ref (ht.symm.trans hs.symm)
      obtain ⟨rfl, rfl, rfl, -⟩ := Metadata.mk.inj hm
      obtain rfl : inline = true := hinline
      exact (ih hi).imp_left .embedded
    · obtain rfl := Schema.ref_inj hs
      exact Or.inr ⟨⟨target, t⟩, List.mem_append_right _ (List.mem_singleton.mpr rfl), rfl⟩

end Descriptor

namespace Registry

variable {forward : String → String → Prop} {r s : Registry} {a b : String}

/-! ## Names in the order they came in -/

/-- **A name came in earlier than another one** — which may be yet to come. -/
def Precedes (r : Registry) (a b : String) : Prop := r.names.idxOf a < r.names.idxOf b

/-- A name that came in keeps its place. -/
theorem Grows.idxOf_eq (h : r.Grows s) (ha : a ∈ r.names) :
    s.names.idxOf a = r.names.idxOf a :=
  ((h.entries.map _).idxOf_eq_of_mem ha).symm

/-- The order in which two names came in stays. -/
theorem Precedes.mono (h : r.Precedes a b) (hb : b ∈ r.names) (hgrows : r.Grows s) :
    s.Precedes a b := by
  have ha : a ∈ r.names :=
    List.idxOf_lt_length_iff.mp (h.trans (List.idxOf_lt_length_iff.mpr hb))
  rwa [Precedes, hgrows.idxOf_eq ha, hgrows.idxOf_eq hb]

/-- A name that is yet to come will come in behind all that are there. -/
theorem precedes_of_notMem (ha : a ∈ r.names) (hb : b ∉ r.names) (hgrows : r.Grows s) :
    s.Precedes a b := by
  obtain ⟨new, hnew⟩ := hgrows.entries
  have hnames : s.names = r.names ++ new.map (·.1) := by
    rw [names, ← hnew, List.map_append]
    rfl
  rw [Precedes, hgrows.idxOf_eq ha, hnames, List.idxOf_append_of_notMem hb]
  exact Nat.lt_add_right _ (List.idxOf_lt_length_iff.mpr ha)

/-! ## Walks along aliases -/

/-- **A name stands for another one** — nothing but a reference is stored under it. -/
def Alias (r : Registry) (name target : String) : Prop := r.get? name = some (.ref target)

theorem Alias.mem (h : r.Alias a b) : a ∈ r.names :=
  contains_iff.mp (Option.isSome_of_eq_some h)

/-- **A walk along the aliases ends** — at a name that is not stored, or under which more than a
reference is. -/
def Ends (r : Registry) (name : String) : Prop :=
  ∃ last, ReflTransGen r.Alias name last ∧ ∀ next, ¬ r.Alias last next

/-- **The aliases are settled** — none leads to itself, and all but some of them lead to a name that
came in earlier. -/
structure Settled (forward : String → String → Prop) (r : Registry) : Prop where
  ne : ∀ name, ¬ r.Alias name name
  earlier : ∀ {name target}, r.Alias name target → forward name target ∨ r.Precedes target name

/-- **A walk along settled aliases ends, or comes to one of those that lead on** — by induction on
the place of the name. -/
theorem Settled.ends_or (h : r.Settled forward) (name : String) :
    r.Ends name ∨ ∃ last next, ReflTransGen r.Alias name last ∧ r.Alias last next ∧
      r.Precedes last next ∧ forward last next := by
  induction hplace : r.names.idxOf name using Nat.strong_induction_on generalizing name with
  | _ place ih =>
    subst hplace
    by_cases hend : ∀ next, ¬ r.Alias name next
    · exact Or.inl ⟨name, .refl, hend⟩
    · obtain ⟨next, hnext⟩ := not_forall_not.mp hend
      have hne : r.names.idxOf name ≠ r.names.idxOf next := by
        rw [Ne, List.idxOf_inj hnext.mem]
        rintro rfl
        exact h.ne name hnext
      rcases hne.lt_or_gt with hlater | hearlier
      · have hforward := (h.earlier hnext).resolve_right hlater.not_gt
        exact Or.inr ⟨name, next, .refl, hnext, hlater, hforward⟩
      · rcases ih _ hearlier next rfl with ⟨last, hwalk, hlast⟩ | ⟨last, after, hwalk, hlast⟩
        · exact Or.inl ⟨last, .head hnext hwalk, hlast⟩
        · exact Or.inr ⟨last, after, .head hnext hwalk, hlast⟩

/-! ## Registrations -/

/-- **An alias was there before a registration, or has come in with it** — as a new name, and not
for itself. -/
theorem Alias.of_register {name : String} {schema : Schema}
    (h : r.register name schema = .ok s) (hab : s.Alias a b) :
    r.Alias a b ∨ a ∉ r.names ∧ a = name ∧ schema = .ref b ∧ a ≠ b := by
  rcases register_eq_ok_iff.mp h with ⟨-, rfl⟩ | ⟨habsent, ⟨-, hself⟩, -⟩
  · exact Or.inl hab
  · rcases get?_or_eq_of_register h hab with hold | rfl
    · exact Or.inl hold
    · obtain rfl := Option.some.inj ((get?_of_register h).symm.trans hab)
      refine Or.inr ⟨Table.get?_eq_none_iff.mp habsent, rfl, rfl, ?_⟩
      rintro rfl
      exact hself ⟨rfl, rfl⟩

/-- What some definitions lead to, and others from there if none was refused, both lead to. -/
theorem registerAll_append_fst {P : Registry → Prop} {defs defs' : List Definition}
    (h : P (r.registerAll defs).1)
    (h' : ∀ r₁, r.registerAll defs = (r₁, .ok ()) → P r₁ → P (r₁.registerAll defs').1) :
    P (r.registerAll (defs ++ defs')).1 := by
  rw [registerAll_append]
  rcases hdefs : r.registerAll defs with ⟨r₁, e | u⟩ <;> rw [hdefs] at h
  · exact h
  · exact h' r₁ hdefs h

namespace Settled

/-- **A registration keeps the aliases settled**, if the new one leads to a name that is stored or
is one of those that need not. -/
theorem register {name : String} {schema : Schema} (hr : r.Settled forward)
    (h : r.register name schema = .ok s)
    (hnew : ∀ target, schema = .ref target → forward name target ∨ target ∈ r.names) :
    s.Settled forward := by
  have hgrows := Grows.register h
  refine ⟨fun a ha => ?_, fun {a b} hab => ?_⟩
  · rcases ha.of_register h with hold | ⟨-, -, -, hne⟩
    · exact hr.ne a hold
    · exact hne rfl
  · rcases hab.of_register h with hold | ⟨hmem, rfl, hschema, -⟩
    · exact (hr.earlier hold).imp_right fun hb => hb.mono hold.mem hgrows
    · exact (hnew b hschema).imp_right fun hb => precedes_of_notMem hb hmem hgrows

/-- Lists of definitions that keep the aliases settled do so together. -/
theorem closed (forward : String → String → Prop) :
    Journal.Closed fun defs => ∀ r : Registry, r.Settled forward →
      (r.registerAll defs).1.Settled forward :=
  ⟨fun _ hr => hr, fun h h' r hr => registerAll_append_fst (h r hr) fun r₁ _ => h' r₁⟩

/-- **A synthesis keeps the aliases settled** but for those that its descriptor passes on. -/
theorem synthesize {d : Descriptor}
    (hd : ∀ {name target}, d.Forwards name target → forward name target) (hr : r.Settled forward) :
    (r.synthesize d).1.Settled forward := by
  rw [Registry.synthesize, carryOut_fst]
  refine d.steps_lower (closed forward) ?_ false [] r hr
  intro name underlying description format sample hwithin path content houtcome hsteps r hr
  refine registerAll_append_fst (hsteps r hr) fun r₁ hdefs hr₁ => ?_
  dsimp only [registerAll]
  split
  · next s hs =>
    refine hr₁.register hs fun target htarget => ?_
    obtain ⟨hm, rfl⟩ := Schema.withMetadata_eq_ref htarget
    obtain ⟨rfl, rfl, rfl, -⟩ := Metadata.mk.inj hm
    rcases Descriptor.isReferenceTo_or_defined (Journal.run_of_outcome houtcome) with
      hreference | ⟨x, hx, rfl⟩
    · exact Or.inl (hd ⟨underlying, hreference, hwithin⟩)
    · have hstored := (registerAll_eq_ok hdefs).1 x hx
      exact Or.inr (contains_iff.mp (Option.isSome_of_eq_some hstored))
  · exact hr₁

/-- Any number of syntheses, well or in vain. -/
theorem synthesized {ds : List Descriptor}
    (hds : ∀ d ∈ ds, ∀ {name target}, d.Forwards name target → forward name target)
    (hr : r.Settled forward) : (r.afterAll (ds.map .synthesize)).Settled forward := by
  induction ds generalizing r with
  | nil => exact hr
  | cons d ds ih =>
    obtain ⟨hd, hrest⟩ := List.forall_mem_cons.mp hds
    exact ih hrest (hr.synthesize hd)

end Settled

/-- **A name stands for something in the end, unless types pass it on to names that come later** —
whatever has been synthesized.  No name stands for itself, and a walk along the aliases ends or
comes to an alias that leads to a later name, which some type does nothing but refer to. -/
theorem ends_or_forwards (ds : List Descriptor) (name : String) :
    let r := history (ds.map .synthesize)
    ¬ r.Alias name name ∧
      (r.Ends name ∨ ∃ last next, ReflTransGen r.Alias name last ∧ r.Alias last next ∧
        r.Precedes last next ∧ ∃ d ∈ ds, d.Forwards last next) := by
  intro r
  have hempty : Settled (fun name target => ∃ d ∈ ds, d.Forwards name target) {} :=
    ⟨fun name h => (nomatch h), fun h => nomatch h⟩
  have hsettled : r.Settled fun name target => ∃ d ∈ ds, d.Forwards name target :=
    hempty.synthesized fun d hd _ _ h => ⟨d, hd, h⟩
  exact ⟨hsettled.ne name, hsettled.ends_or name⟩

/-- **Two names that stand for each other** — the inner one is passed on to the outer one. -/
theorem not_ends_loop :
    let loop : Descriptor :=
      .named "A" (.named "B" (.reference "A") none none none false) none none none false
    ∃ r, Registry.synthesizeAll {} [loop] = (r, .ok [.ref "A"]) ∧
      r = history [.synthesize loop] ∧ r.contains "A" = true ∧ ¬ r.Ends "A" := by
  intro loop
  have houter : (history [.synthesize loop]).get? "A" = some (.ref "B") := rfl
  have hinner : (history [.synthesize loop]).get? "B" = some (.ref "A") := rfl
  refine ⟨history [.synthesize loop], rfl, rfl, rfl, ?_⟩
  rintro ⟨last, hwalk, hlast⟩
  have hround : last = "A" ∨ last = "B" := by
    clear hlast
    induction hwalk with
    | refl => exact Or.inl rfl
    | tail _ hstep ih =>
      rcases ih with rfl | rfl
      · exact Or.inr (Schema.ref_inj (Option.some.inj (hstep.symm.trans houter)))
      · exact Or.inl (Schema.ref_inj (Option.some.inj (hstep.symm.trans hinner)))
  rcases hround with rfl | rfl
  · exact hlast "B" houter
  · exact hlast "A" hinner

end Registry

end OpenApi
