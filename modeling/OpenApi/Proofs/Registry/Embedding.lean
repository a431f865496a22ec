import OpenApi.Proofs.Lowering.Chains

/-!
# Proofs/Registry/Embedding — a named type embedded, and a reference to it

    chain of `named` and `optional` ──lower──▸ n, registry      references to what is stored
                  ╎                            │
                  ╎                            │ unfolded in the registry
                  ▼                            ▼
         the same chain, embedded ──lower──▸   s

A use site that embeds opens a chain of names and options down to its core and puts all metadata on
it; any other use site stores a schema for each name and refers to it.  Both describe the same
schema: the references of the second one unfold to the schema of the first (`lower_embedded`).
Metadata is put on top in either case, at once or when a reference is opened.
-/

namespace OpenApi

namespace Descriptor

variable {r : Registry} {path : DescriptorPath} {s : Schema}

/-- **The references of a chain unfold to its embedded schema** — by induction along the chain.
Embedding stores nothing but what the core does, which is stored first. -/
theorem unfolds_lower {d : Descriptor} (hd : d.EndsInShape) {defs : List Definition}
    (h : (d.lower false path).Run defs s) (hr : r.Holds defs) :
    ∃ t defs₀, (d.lower true path).Run defs₀ t ∧ defs₀ <+: defs ∧ r.Unfolds s t := by
  induction d using chainInduction generalizing path defs s with
  | content d hcore =>
    refine ⟨s, defs, ?_, List.prefix_rfl, .refl (target?_of_lower hcore hd h.outcome)⟩
    rw [lower_of_isCore hcore]
    exact h
  | optional inner ih =>
    obtain ⟨i, hi, rfl⟩ := run_optional.mp h
    obtain ⟨t, defs₀, ht, hdefs, hunfolds⟩ := ih hd hi hr
    exact ⟨_, defs₀, run_optional.mpr ⟨t, ht, rfl⟩, hdefs, hunfolds.withMetadata _⟩
  | named name underlying description format sample inline ih =>
    obtain ⟨defs₁, i, u, hi, hu, hstored⟩ := run_named.mp h
    have hholds : r.Holds defs₁ := by
      rcases hstored with ⟨-, rfl, -⟩ | ⟨-, rfl, -⟩
      · exact hr
      · exact (Registry.Holds.append.mp hr).1
    obtain ⟨t, defs₀, ht, hdefs, hunfolds⟩ := ih hd hi hholds
    -- the schema with the metadata of the name unfolds as it should, stored or not
    have hmetadata := hunfolds.withMetadata { description, format, sample }
    rw [← hu] at hmetadata
    refine ⟨t.withMetadata { description, format, sample }, defs₀,
      run_named.mpr ⟨defs₀, t, _, ht, rfl, Or.inl ⟨rfl, rfl, rfl⟩⟩, ?_⟩
    rcases hstored with ⟨-, rfl, rfl⟩ | ⟨-, rfl, rfl⟩
    · exact ⟨hdefs, hmetadata⟩
    · have hname : r.get? name = some u :=
        (Registry.Holds.append.mp hr).2 ⟨name, u⟩ (List.mem_singleton.mpr rfl)
      exact ⟨hdefs.trans (List.prefix_append _ _),
        .head ⟨name, {}, u, Schema.target?_ref name, hname, rfl⟩ hmetadata⟩

end Descriptor

/-- What is stored first is stored without what comes after it. -/
theorem Registry.registerAll_of_prefix {r r' : Registry} {defs₀ defs : List Definition}
    (hdefs : defs₀ <+: defs) (h : r.registerAll defs = (r', .ok ())) :
    ∃ r₀, r.registerAll defs₀ = (r₀, .ok ()) ∧ r₀.Grows r' := by
  obtain ⟨rest, rfl⟩ := hdefs
  rw [registerAll_append] at h
  rcases hr : r.registerAll defs₀ with ⟨r₀, e | u⟩
  · rw [hr] at h
    cases h
  · rw [hr] at h
    have hgrows := Grows.registerAll r₀ rest
    rw [show r₀.registerAll rest = (r', .ok ()) from h] at hgrows
    exact ⟨r₀, rfl, hgrows⟩

/-- **A chain embedded and a reference to it describe the same schema** — if a chain of names and
options around a shape of its own is lowered on a registry, so it is where it is embedded.  The
schema of the first unfolds to that of the second and to no other, in the registry that it leaves;
and all that the second leaves in the registry the first does, too. -/
theorem lower_embedded {d : Descriptor} (hd : d.EndsInShape) {r r' : Registry}
    {path : DescriptorPath} {n : Schema} (h : r.carryOut (d.lower false path) = (r', .ok n)) :
    ∃ s r₀, r.carryOut (d.lower true path) = (r₀, .ok s) ∧
      (∀ t, r'.Unfolds n t ↔ t = s) ∧ r₀.entries <+: r'.entries := by
  obtain ⟨hstored, houtcome⟩ := Registry.carryOut_eq_ok_iff.mp h
  obtain ⟨s, defs₀, hrun, hdefs, hunfolds⟩ := Descriptor.unfolds_lower hd
    (Journal.run_of_outcome houtcome) (Registry.registerAll_eq_ok hstored).1
  obtain ⟨r₀, hr₀, hgrows⟩ := Registry.registerAll_of_prefix hdefs hstored
  rw [← hrun.steps] at hr₀
  refine ⟨s, r₀, Registry.carryOut_eq_ok_iff.mpr ⟨hr₀, hrun.outcome⟩, fun t => ?_, hgrows.entries⟩
  exact ⟨fun ht => ht.unique hunfolds, fun ht => ht ▸ hunfolds⟩

/-- An optional text under two names, each of which says something about it. -/
def Descriptor.token : Descriptor :=
  .optional (.named "Token"
    (.named "Text" (.primitive .string none) (some "any text") none none false)
    none (some "uuid") none false)

/-- What both names and the option say is found on the text when the references are opened. -/
theorem lower_embedded_token :
    Descriptor.token.EndsInShape ∧
      ∃ r n, Registry.carryOut {} (Descriptor.token.lower false []) = (r, .ok n) ∧
        n.target? = some ("Token", { nullable := true }) ∧
        r.Unfolds n { Schema.primitive "string" none with
          metadata :=
            { description := some "any text", format := some "uuid", nullable := true } } := by
  have hd : Descriptor.token.EndsInShape := ⟨nofun, nofun⟩
  obtain ⟨r, n, hr, hn⟩ : ∃ r n,
      Registry.carryOut {} (Descriptor.token.lower false []) = (r, .ok n) ∧
        n.target? = some ("Token", { nullable := true }) := ⟨_, _, rfl, rfl⟩
  obtain ⟨s, r₀, hs, hunfolds, -⟩ := lower_embedded hd hr
  refine ⟨hd, r, n, hr, hn, (hunfolds _).mpr ?_⟩
  exact Except.ok.inj (congrArg Prod.snd hs)

end OpenApi
