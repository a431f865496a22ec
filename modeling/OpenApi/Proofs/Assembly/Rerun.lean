import OpenApi.Proofs.Assembly.Document

/-!
# Proofs/Assembly/Rerun — an assembly repeated on what it left behind

    registry ──assemble──▸ (outcome, registry₁) ──assemble──▸ (the same outcome, registry₁)

A rendering is a list of steps that does not read the registry, so the second run replays the steps
of the first.  Each step before the first failure finds its schema stored already and changes
nothing; the failing step meets the registry it failed on (`steps_replay`).  If nothing failed, the
registry has been frozen since, which only new names would notice.
-/

namespace OpenApi

namespace Build

/-- **A step that has been carried out changes nothing when it comes again** — on a registry that
knows all that the step left behind. -/
theorem step_replay {b b' : Build} {s : Step} (h : b.step s = .ok b') {r : Registry}
    (hr : ∀ name schema, b'.registry.get? name = some schema → r.get? name = some schema) :
    (b.on r).step s = .ok (b'.on r) := by
  cases s with
  | define d =>
    rw [step] at h
    split at h
    · next r' hr' =>
      obtain rfl := Except.ok.inj h
      have hd : r.register d.name d.schema = .ok r :=
        Registry.register_eq_ok_iff.mpr (Or.inl ⟨hr _ _ (Registry.get?_of_register hr'), rfl⟩)
      rw [step, hd]
    · cases h
  | emit schema =>
    obtain rfl := Except.ok.inj h
    rfl
  | declare name scheme =>
    rw [step] at h ⊢
    split at h
    · next hn =>
      obtain rfl := Except.ok.inj h
      simp only [hn]
    · next existing hn =>
      simp only [hn]
      split at h
      · next he =>
        obtain rfl := Except.ok.inj h
        rw [if_pos he]
      · cases h
  | refer name =>
    obtain rfl := Except.ok.inj h
    rfl

/-- **A run of steps comes to the same end on the registry it left** — frozen or not, unless a step
failed: then the registry must be the one that step failed on. -/
theorem steps_replay {b b' : Build} {ss : List Step} {o : Except AssemblyError Unit}
    (h : b.steps ss = (b', o)) {r : Registry} (hentries : r.entries = b'.registry.entries)
    (hfrozen : ∀ e, o = .error e → r.frozen = b'.registry.frozen) :
    (b.on r).steps ss = (b'.on r, o) := by
  induction ss generalizing b with
  | nil =>
    obtain ⟨rfl, rfl⟩ := Prod.mk.inj h
    rfl
  | cons s ss ih =>
    rw [steps] at h
    cases hs : b.step s with
    | ok b₁ =>
      replace h : b₁.steps ss = (b', o) := by rwa [hs] at h
      have hgrow : b₁.registry.Grows b'.registry := by
        have := grows_steps b₁ ss
        rwa [h] at this
      have hstep : (b.on r).step s = .ok (b₁.on r) := by
        refine step_replay hs fun name schema hn => ?_
        have := hgrow.get? hn
        rwa [Registry.get?, ← hentries] at this
      rw [steps, hstep]
      exact ih h
    | error e =>
      rw [hs] at h
      obtain ⟨rfl, rfl⟩ := Prod.mk.inj h
      have hr : r = b.registry := by
        have hf := hfrozen e rfl
        cases r
        cases hb : b.registry
        simp_all
      have hstep : (b.on r).step s = .error e := by
        rw [hr]
        exact hs
      rw [steps, hstep]

theorem carryOut_replay {α : Type} {b b' : Build} {rendering : Rendering α}
    {o : Except AssemblyError α} (h : b.carryOut rendering = (b', o)) {r : Registry}
    (hentries : r.entries = b'.registry.entries)
    (hfrozen : ∀ e, o = .error e → r.frozen = b'.registry.frozen) :
    (b.on r).carryOut rendering = (b'.on r, o) := by
  rw [carryOut] at h ⊢
  cases hs : b.steps rendering.steps with
  | mk b₁ o₁ =>
    rw [hs] at h
    cases o₁ with
    | error e =>
      obtain ⟨rfl, rfl⟩ := Prod.mk.inj h
      rw [steps_replay hs hentries fun e' he => hfrozen e rfl]
    | ok u =>
      obtain ⟨rfl, rfl⟩ := Prod.mk.inj h
      rw [steps_replay hs hentries fun e' he => by cases he]

/-- A build is finished on a frozen registry as it would be before. -/
theorem finish_freeze (b : Build) (api : Api) (options : AssemblyOptions) (paths : Json) :
    (b.on b.registry.freeze).finish api options paths = b.finish api options paths := rfl

end Build

/-- **Assembling again changes nothing** — whatever the registry held and whatever the first run
ended in, the second one ends in the same document or failure and leaves the same registry. -/
theorem assemble_again (api : Api) (options : AssemblyOptions) (r : Registry) :
    (assemble api options (assemble api options r).registry).outcome =
        (assemble api options r).outcome ∧
      (assemble api options (assemble api options r).registry).registry =
        (assemble api options r).registry := by
  have hof : ∀ s, Build.ofApi api s = (Build.ofApi api r).on s := fun _ => rfl
  cases h : (Build.ofApi api r).carryOut
      (renderPaths options.defaultResponseDescription api.paths) with
  | mk b o =>
    cases o with
    | error e =>
      obtain ⟨hout, hreg⟩ := assemble_of_error h
      have hsecond := Build.carryOut_replay h rfl fun _ _ => rfl
      rw [← hof, ← hreg] at hsecond
      rw [hout, (assemble_of_error hsecond).1, (assemble_of_error hsecond).2]
      exact ⟨rfl, rfl⟩
    | ok paths =>
      obtain ⟨hout, hreg⟩ := assemble_of_ok h
      have hsecond := Build.carryOut_replay h (r := b.registry.freeze) rfl
        fun e he => nomatch he
      rw [← hof, ← hreg] at hsecond
      rw [hout, (assemble_of_ok hsecond).1, (assemble_of_ok hsecond).2, hreg]
      exact ⟨congrArg Assembled.outcome (Build.finish_freeze b api options paths), rfl⟩

end OpenApi
